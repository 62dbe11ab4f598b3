import TruthExpr.Proofs.ErrorPosition
import TruthExpr.Proofs.Height
import TruthExpr.Proofs.RoundTrip
import TruthExpr.Service.Endpoint

/-! # Answers — how the service decides about an expression

    Both endpoints look at the length of an expression and then read it; the
    one that returns trees also looks at the height of what it has read.  The
    route:

    * `shown_of_long`, `shown_of_refusal`, `shown_summary`, `shown_tree` and
      `shown_of_high`: what is answered, from what the expression is;
    * `shown_tooLong_iff`, `status_eq_unreadable_iff` and `of_shown_tree`: no
      two of these answers can be taken for each other, so an answer also says
      what the expression is;
    * the source text of a returned tree is a sentence with that tree, so it is
      answered as the expression was, unless it is too long. -/

namespace TruthExpr

/-- The name of a kind tells whether something was left over. -/
theorem ReadError.Kind.name_eq_trailing_iff (k : ReadError.Kind) :
    k.name = "trailing_input" ↔ ∃ rest, k = .trailing rest := by
  cases k with
  | general => exact iff_of_false (by decide) fun ⟨_, h⟩ => nomatch h
  | malformed failure =>
      have hname : "syntax" ≠ "trailing_input" := by decide
      exact iff_of_false hname fun ⟨_, h⟩ => nomatch h
  | trailing rest => exact iff_of_true rfl ⟨rest, rfl⟩

/-- A text that is refused is told to have something left over if it begins
    with a sentence, unless it is too deep to tell. -/
theorem Reading.kind_of_refusal {text : String} {x : ReadError} (h : readExpr text = .error x)
    (hdepth : ¬ OutOfDepth text) :
    x.kind.name = "trailing_input" ↔ ∃ t, t <+: text.toList ∧ Sentence t := by
  have hnot : ¬ Sentence text.toList := by
    rintro ⟨e, he⟩
    exact nomatch h.symm.trans (readExpr_ok_iff.mpr he)
  have htrailing := trailing_iff hdepth
  rw [h, and_iff_right hnot] at htrailing
  rw [x.kind.name_eq_trailing_iff, ← htrailing]
  constructor
  · rintro ⟨rest, hrest⟩
    exact ⟨rest, x.message, x.position, by rw [← hrest]⟩
  · rintro ⟨rest, message, position, hx⟩
    cases hx
    exact ⟨rest, rfl⟩

namespace Service

open Reading

variable {config : Config} {body : Json} {text : String} {e : Expr} {denial : Denial} {a : Answer}

/-- What a client is shown: the status, and the value or the details. -/
def Answer.shown (a : Answer) : Nat × Json :=
  (a.status,
    match a.result with
    | .ok value => value
    | .error denial => denial.detail)

theorem Answer.shown_of_ok {value : Json} (h : a.result = .ok value) : a.shown = (200, value) := by
  rw [shown, status, h]

/-- A denial is shown with its status and its detail. -/
theorem Answer.shown_of_error (h : a.result = .error denial) :
    a.shown = (denial.status, denial.detail) := by
  rw [shown, status, h]

/-- The two limits are not taken for each other. -/
theorem tooLong_detail_ne (m n : Int) : (Denial.tooLong m).detail ≠ (Denial.tooDeep n).detail := by
  intro h
  have hwords := congrArg String.toList (Json.string.inj h)
  simp only [String.toList_append, List.append_assoc] at hwords
  have hletter : 'e' = 't' := (List.cons.inj hwords).1
  exact absurd hletter (by decide)

/-! ## What is answered -/

/-- An answer is what dealing with the expression of the request comes to. -/
theorem result_answer (h : bodyText body = .ok text) (endpoint : Endpoint) :
    (endpoint.answer config body).result = (endpoint.deal config text).result := by
  rw [Endpoint.answer, h]

/-- What is denied on reading is denied at both endpoints. -/
theorem shown_of_denied (h : bodyText body = .ok text)
    (hread : (read config text).result = .error denial) (endpoint : Endpoint) :
    (endpoint.answer config body).shown = (denial.status, denial.detail) := by
  refine Answer.shown_of_error ((result_answer h endpoint).trans ?_)
  cases endpoint with
  | summary =>
      show ((read config text).result.map Expr.measure).map summaryJson = _
      rw [hread]
      rfl
  | tree =>
      show (view config text).result.map View.toJson = _
      rw [view, hread]
      rfl

/-- A long text is denied before it is read. -/
theorem shown_of_long (h : bodyText body = .ok text) (hlong : config.maxInput < text.length)
    (endpoint : Endpoint) :
    (endpoint.answer config body).shown = (413, (Denial.tooLong config.maxInput).detail) := by
  have hread : (read config text).result = .error (.tooLong config.maxInput) := by
    rw [read, if_pos hlong]
  exact shown_of_denied h hread endpoint

theorem shown_of_refusal (h : bodyText body = .ok text) (hlen : text.length ≤ config.maxInput)
    {x : ReadError} (hx : readExpr text = .error x) (endpoint : Endpoint) :
    (endpoint.answer config body).shown = (400, (Denial.unreadable x).detail) := by
  have hread : (read config text).result = .error (.unreadable x) := by
    rw [read, if_neg (Int.not_lt.mpr hlen), hx]
  exact shown_of_denied h hread endpoint

theorem read_of_derives (hlen : text.length ≤ config.maxInput)
    (hd : Derives .expr text.toList e) : (read config text).result = .ok e := by
  rw [read, if_neg (Int.not_lt.mpr hlen), readExpr_ok_iff.mpr hd]

theorem shown_summary (h : bodyText body = .ok text) (hlen : text.length ≤ config.maxInput)
    (hd : Derives .expr text.toList e) :
    (Endpoint.summary.answer config body).shown = (200, summaryJson e.measure) := by
  refine Answer.shown_of_ok ((result_answer h .summary).trans ?_)
  show ((read config text).result.map Expr.measure).map summaryJson = _
  rw [read_of_derives hlen hd]
  rfl

/-- The tree of a sentence is viewed, or refused for its height. -/
theorem result_view (hlen : text.length ≤ config.maxInput) (hd : Derives .expr text.toList e) :
    (view config text).result =
      if config.maxTreeDepth < e.height then .error (.tooDeep config.maxTreeDepth)
      else .ok ⟨e.outline Expr.usualIndent, e.toJson, e.source⟩ := by
  rw [view, read_of_derives hlen hd]
  dsimp only
  rw [Expr.depth_measure]
  by_cases hhigh : config.maxTreeDepth < e.height
  · rw [if_pos hhigh, if_pos hhigh]
  · rw [if_neg hhigh, if_neg hhigh]

/-- A tree that is low enough is shown in its three views. -/
theorem shown_tree (h : bodyText body = .ok text) (hlen : text.length ≤ config.maxInput)
    (hd : Derives .expr text.toList e) (hlow : e.height ≤ config.maxTreeDepth) :
    (Endpoint.tree.answer config body).shown =
      (200, View.toJson ⟨e.outline Expr.usualIndent, e.toJson, e.source⟩) := by
  refine Answer.shown_of_ok ((result_answer h .tree).trans ?_)
  show (view config text).result.map View.toJson = _
  rw [result_view hlen hd, if_neg (Int.not_lt.mpr hlow)]
  rfl

theorem shown_of_high (h : bodyText body = .ok text) (hlen : text.length ≤ config.maxInput)
    (hd : Derives .expr text.toList e) (hhigh : config.maxTreeDepth < e.height) :
    (Endpoint.tree.answer config body).shown =
      (413, (Denial.tooDeep config.maxTreeDepth).detail) := by
  have hresult : (Endpoint.tree.answer config body).result =
      .error (.tooDeep config.maxTreeDepth) := by
    rw [result_answer h]
    show (view config text).result.map View.toJson = _
    rw [result_view hlen hd, if_pos hhigh]
    rfl
  exact Answer.shown_of_error hresult

/-- A sentence that is not too long is answered with a value or, for its tree,
    with a refusal of its height. -/
theorem shown_of_derives (h : bodyText body = .ok text) (hlen : text.length ≤ config.maxInput)
    (hd : Derives .expr text.toList e) (endpoint : Endpoint) :
    (∃ value, (endpoint.answer config body).shown = (200, value)) ∨
      (endpoint.answer config body).shown =
        (413, (Denial.tooDeep config.maxTreeDepth).detail) := by
  cases endpoint with
  | summary => exact Or.inl ⟨_, shown_summary h hlen hd⟩
  | tree =>
      by_cases hhigh : config.maxTreeDepth < e.height
      · exact Or.inr (shown_of_high h hlen hd hhigh)
      · exact Or.inl ⟨_, shown_tree h hlen hd (Int.not_lt.mp hhigh)⟩

/-! ## What an answer says about the expression -/

/-- The length is only given as the reason if it is the reason. -/
theorem shown_tooLong_iff (h : bodyText body = .ok text) (endpoint : Endpoint) :
    (endpoint.answer config body).shown = (413, (Denial.tooLong config.maxInput).detail) ↔
      config.maxInput < text.length := by
  refine ⟨fun hshown => Int.not_le.mp fun hlen => ?_, fun hlong => shown_of_long h hlong endpoint⟩
  cases hread : readExpr text with
  | error x =>
      rw [shown_of_refusal h hlen hread] at hshown
      exact nomatch hshown
  | ok e =>
      have hd := readExpr_ok_iff.mp hread
      rcases shown_of_derives h hlen hd endpoint with ⟨value, hvalue⟩ | hhigh
      · rw [hvalue] at hshown
        exact nomatch hshown
      · -- a refusal for the height has the same status, but not the same words
        rw [hhigh] at hshown
        exact tooLong_detail_ne _ _ (congrArg Prod.snd hshown).symm

/-- What cannot be read is no sentence. -/
theorem status_eq_unreadable_iff (h : bodyText body = .ok text)
    (hlen : text.length ≤ config.maxInput) (endpoint : Endpoint) :
    (endpoint.answer config body).status = 400 ↔ ¬ Sentence text.toList := by
  show (endpoint.answer config body).shown.1 = 400 ↔ _
  constructor
  · rintro hstatus ⟨e, hd⟩
    rcases shown_of_derives h hlen hd endpoint with ⟨value, hvalue⟩ | hhigh
    · rw [hvalue] at hstatus
      exact nomatch hstatus
    · rw [hhigh] at hstatus
      exact nomatch hstatus
  · intro hnot
    cases hread : readExpr text with
    | error x => rw [shown_of_refusal h hlen hread]
    | ok e => exact absurd ⟨e, readExpr_ok_iff.mp hread⟩ hnot

/-- A sentence is not refused as unreadable. -/
theorem status_ne_of_derives (h : bodyText body = .ok text) (hd : Derives .expr text.toList e)
    (endpoint : Endpoint) : (endpoint.answer config body).status ≠ 400 := by
  by_cases hlong : config.maxInput < text.length
  · intro hstatus
    change (endpoint.answer config body).shown.1 = 400 at hstatus
    rw [shown_of_long h hlong] at hstatus
    exact nomatch hstatus
  · exact fun hstatus =>
      (status_eq_unreadable_iff h (Int.not_lt.mp hlong) endpoint).mp hstatus ⟨e, hd⟩

/-- A tree that is not too high is not refused for its height. -/
theorem shown_ne_of_low (h : bodyText body = .ok text) (hd : Derives .expr text.toList e)
    (hlow : e.height ≤ config.maxTreeDepth) (endpoint : Endpoint) :
    (endpoint.answer config body).shown ≠
      (413, (Denial.tooDeep config.maxTreeDepth).detail) := by
  by_cases hlong : config.maxInput < text.length
  · rw [shown_of_long h hlong]
    exact fun hshown => tooLong_detail_ne _ _ (congrArg Prod.snd hshown)
  · have hlen := Int.not_lt.mp hlong
    cases endpoint with
    | summary =>
        rw [shown_summary h hlen hd]
        exact fun hshown => nomatch hshown
    | tree =>
        rw [shown_tree h hlen hd hlow]
        exact fun hshown => nomatch hshown

/-- A value is only returned for a sentence that is not too long, and a tree
    only if it is not too high. -/
theorem of_shown_tree {value : Json}
    (hshown : (Endpoint.tree.answer config body).shown = (200, value)) :
    ∃ text e, bodyText body = .ok text ∧ text.length ≤ config.maxInput ∧
      Derives .expr text.toList e ∧ e.height ≤ config.maxTreeDepth ∧
      value = View.toJson ⟨e.outline Expr.usualIndent, e.toJson, e.source⟩ := by
  -- of all the ways to answer, only the last has this status
  cases h : bodyText body with
  | error fault =>
      have hresult : (Endpoint.tree.answer config body).result = .error (.badBody fault) := by
        rw [Endpoint.answer, h]
      rw [Answer.shown_of_error hresult] at hshown
      exact nomatch hshown
  | ok text =>
      by_cases hlong : config.maxInput < text.length
      · rw [shown_of_long h hlong] at hshown
        exact nomatch hshown
      · have hlen := Int.not_lt.mp hlong
        cases hread : readExpr text with
        | error x =>
            rw [shown_of_refusal h hlen hread] at hshown
            exact nomatch hshown
        | ok e =>
            have hd := readExpr_ok_iff.mp hread
            by_cases hhigh : config.maxTreeDepth < e.height
            · rw [shown_of_high h hlen hd hhigh] at hshown
              exact nomatch hshown
            · have hlow := Int.not_lt.mp hhigh
              rw [shown_tree h hlen hd hlow] at hshown
              exact ⟨text, e, rfl, hlen, hd, hlow, (congrArg Prod.snd hshown).symm⟩

/-- DECISION: whatever the limits, both endpoints refuse an expression for its
    length just if it is longer than allowed; otherwise both refuse it in one
    and the same way, at a position inside it, just if it is no sentence, and
    say that something is left over just if it begins with one; otherwise it is
    summarised, and its tree is returned just if it is not higher than allowed.
    A tree that is returned does not nest deeper than allowed, and all its
    forms are those of the one tree that is summarised. -/
theorem decision (config : Config) (body : Json) (text : String) (h : bodyText body = .ok text) :
    (∀ endpoint : Endpoint, (endpoint.answer config body).shown =
        (413, .string ("expression longer than " ++ toString config.maxInput ++ " characters")) ↔
      config.maxInput < text.length) ∧
    (text.length ≤ config.maxInput →
      (∀ endpoint : Endpoint,
        (endpoint.answer config body).status = 400 ↔ ¬ Sentence text.toList) ∧
      (¬ Sentence text.toList → ∃ (kind message : String) (position : Nat),
        (∀ endpoint : Endpoint, (endpoint.answer config body).shown =
          (400, .object [("error", .string kind), ("message", .string message),
            ("position", .int position)])) ∧
        position ≤ text.length ∧
        (¬ OutOfDepth text →
          (kind = "trailing_input" ↔ ∃ t, t <+: text.toList ∧ Sentence t))) ∧
      (∀ e, Derives .expr text.toList e →
        (Endpoint.summary.answer config body).shown = (200, summaryJson e.measure) ∧
        ((Endpoint.tree.answer config body).status = 200 ↔ e.height ≤ config.maxTreeDepth) ∧
        (¬ e.height ≤ config.maxTreeDepth → (Endpoint.tree.answer config body).shown =
          (413, .string ("tree deeper than " ++ toString config.maxTreeDepth ++ " levels"))))) ∧
    (∀ value, (Endpoint.tree.answer config body).shown = (200, value) →
      ∃ e, Derives .expr text.toList e ∧ e.toJson.objectDepth ≤ config.maxTreeDepth ∧
        value = .object [("ok", .bool true), ("pretty", .string (e.outline Expr.usualIndent)),
          ("tree", e.toJson), ("source", .string e.source)] ∧
        (Endpoint.summary.answer config body).shown = (200, summaryJson e.measure)) := by
  refine ⟨shown_tooLong_iff h, fun hlen => ⟨status_eq_unreadable_iff h hlen, ?_, ?_⟩, ?_⟩
  · intro hnot
    cases hread : readExpr text with
    | ok e => exact absurd ⟨e, readExpr_ok_iff.mp hread⟩ hnot
    | error x =>
        obtain ⟨n, hn, hle⟩ := position_of_refusal hread
        refine ⟨x.kind.name, x.message, n, ?_, hle, kind_of_refusal hread⟩
        rw [← hn]
        exact shown_of_refusal h hlen hread
  · intro e hd
    refine ⟨shown_summary h hlen hd, ⟨?_, ?_⟩, ?_⟩
    · intro hstatus
      refine Int.not_lt.mp fun hhigh => ?_
      change (Endpoint.tree.answer config body).shown.1 = 200 at hstatus
      rw [shown_of_high h hlen hd hhigh] at hstatus
      exact nomatch hstatus
    · exact fun hlow => congrArg Prod.fst (shown_tree h hlen hd hlow)
    · exact fun hhigh => shown_of_high h hlen hd (Int.not_le.mp hhigh)
  · intro value hshown
    obtain ⟨other, e, hother, hlen, hd, hlow, rfl⟩ := of_shown_tree hshown
    obtain rfl : other = text := Except.ok.inj (hother.symm.trans h)
    refine ⟨e, hd, ?_, rfl, shown_summary h hlen hd⟩
    -- what was compared with the limit is how deep the object nests
    rw [e.objectDepth_toJson]
    exact hlow

/-- A tree of three levels is summarised, and not returned by a service that
    returns two. -/
theorem decision_three_levels :
    bodyText (.object [("expression", .string "!(true)&&false")]) = .ok "!(true)&&false" ∧
    (Endpoint.tree.answer { maxTreeDepth := 2 }
      (.object [("expression", .string "!(true)&&false")])).shown =
        (413, .string "tree deeper than 2 levels") ∧
    (Endpoint.summary.answer { maxTreeDepth := 2 }
      (.object [("expression", .string "!(true)&&false")])).shown =
        (200, .object [("ok", .bool true), ("literals", .array [.bool false, .bool true]),
          ("operators", .object [("!", .int 1), ("&&", .int 1)]), ("nodes", .int 4),
          ("depth", .int 3)]) := by
  have htext : bodyText (.object [("expression", .string "!(true)&&false")]) =
    .ok "!(true)&&false" := rfl
  have hd : Derives .expr "!(true)&&false".toList
      (.and (.not (.literal true)) (.literal false)) :=
    readExpr_ok_iff.mp rfl
  have hdecision := decision { maxTreeDepth := 2 } _ _ htext
  obtain ⟨hsummary, -, hhigh⟩ := (hdecision.2.1 (by decide)).2.2 _ hd
  exact ⟨htext, hhigh (by decide), hsummary⟩

/-- REPOSTING: whatever the limits, the source text of a returned tree is
    answered by the same tree, in the same forms, and summarised as the
    expression was; if it is longer than allowed, both endpoints refuse it for
    its length.  It is never refused for anything else. -/
theorem reposting (config : Config) (body value : Json)
    (h : (Endpoint.tree.answer config body).shown = (200, value)) :
    ∃ (members : List (String × Json)) (source : String),
      value = .object members ∧ Json.member? "source" members = some (.string source) ∧
      ∀ body₁ : Json, bodyText body₁ = .ok source →
        (source.length ≤ config.maxInput →
          (Endpoint.tree.answer config body₁).shown = (200, value) ∧
          (Endpoint.summary.answer config body₁).status = 200 ∧
          (Endpoint.summary.answer config body₁).shown =
            (Endpoint.summary.answer config body).shown) ∧
        (config.maxInput < source.length → ∀ endpoint : Endpoint,
          (endpoint.answer config body₁).shown = (413,
            .string ("expression longer than " ++ toString config.maxInput ++ " characters"))) ∧
        (∀ endpoint : Endpoint, (endpoint.answer config body₁).status ≠ 400 ∧
          (endpoint.answer config body₁).shown ≠
            (413, .string ("tree deeper than " ++ toString config.maxTreeDepth ++ " levels"))) := by
  obtain ⟨text, e, htext, hlen, hd, hlow, rfl⟩ := of_shown_tree h
  refine ⟨_, e.source, rfl, rfl, fun body₁ h₁ => ⟨?_, shown_of_long h₁, ?_⟩⟩
  · intro hshort
    have hsummary := shown_summary h₁ hshort e.expr_derives_source
    refine ⟨shown_tree h₁ hshort e.expr_derives_source hlow, congrArg Prod.fst hsummary, ?_⟩
    rw [hsummary, shown_summary htext hlen hd]
  · exact fun endpoint => ⟨status_ne_of_derives h₁ e.expr_derives_source endpoint,
      shown_ne_of_low h₁ e.expr_derives_source hlow endpoint⟩

/-- The source text of a returned tree may be too long to be posted. -/
theorem reposting_longer_source :
    (Endpoint.tree.answer { maxInput := 20 }
      (.object [("expression", .string "true&&false||true")])).shown.1 = 200 ∧
    ∀ endpoint : Endpoint, (endpoint.answer { maxInput := 20 }
      (.object [("expression", .string "((true&&false)||true)")])).shown =
        (413, .string "expression longer than 20 characters") := by
  obtain ⟨members, source, hvalue, hsource, hposted⟩ := reposting { maxInput := 20 }
    (.object [("expression", .string "true&&false||true")]) _ rfl
  obtain rfl := Json.object.inj hvalue
  obtain rfl := Json.string.inj (Option.some.inj hsource)
  exact ⟨rfl, (hposted _ rfl).2.1 (by decide)⟩

end Service

end TruthExpr
