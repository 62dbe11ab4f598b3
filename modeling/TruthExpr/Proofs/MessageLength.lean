import TruthExpr.Proofs.Nesting

/-! # Message lengths — a refusal takes no more words than there are signs to blame

    The failure inside a group is described in full, and the description is one
    of the alternatives of the failure around it.  It occurs there ONCE, so
    each level adds the same few words to it:

    * a sign of negation adds a frame, of 20 characters;
    * a group adds two frames, of 36 characters, and puts 42 characters of its
      own alternatives and its own frame around all that.

    What is said is therefore as long as 78 characters for each parenthesis and
    20 for each sign of negation that are open at one point of the descent
    (`length_message`), and these signs all stand in the text. -/

namespace TruthExpr

namespace Failure

variable {f : Failure}

theorem context_concat {frames : List Frame} (h : frames ≠ []) (g : Frame) :
    context (frames ++ [g]) = context frames ++ ", followed by " ++ g.label := by
  obtain ⟨first, rest, rfl⟩ := List.exists_cons_of_ne_nil h
  show (rest ++ [g]).foldl _ _ = _
  rw [List.foldl_append]
  rfl

/-- One more active rule is told at the end. -/
theorem describe_within (h : f.frames ≠ []) (label : String) (position : Int) :
    (f.within label position).describe = f.describe ++ ", followed by " ++ label := by
  show " or ".intercalate f.expected ++ context (f.frames ++ [⟨label, position⟩]) = _
  rw [context_concat h, describe, String.append_assoc, String.append_assoc, String.append_assoc]

theorem length_describe_within (h : f.frames ≠ []) (label : String) (position : Int) :
    (f.within label position).describe.length = f.describe.length + 14 + label.length := by
  have hwords : ", followed by ".length = 14 := rfl
  rw [describe_within h, String.length_append, String.length_append, hwords]

/-- The two frames of an expression. -/
theorem length_describe_ofExpr (h : f.frames ≠ []) (start : Int) :
    (f.ofExpr start).describe.length = f.describe.length + 36 := by
  have hne : (f.within "term" start).frames ≠ [] := List.concat_ne_nil _ _
  have hterm : "term".length = 4 := rfl
  have hexpr : "expr".length = 4 := rfl
  rw [ofExpr, length_describe_within hne, length_describe_within h, hterm, hexpr]

/-- What a factor says around what it lacks. -/
theorem length_describe_ofFactor (start : Int) (missing : String) (position : Int) :
    (ofFactor start missing position).describe.length = missing.length + 42 := by
  show ("\"!\"" ++ " or " ++ missing ++ " or " ++ "boolean" ++
    (" while processing " ++ "factor")).length = _
  simp only [String.length_append]
  show 3 + 4 + missing.length + 4 + 7 + (18 + 6) = _
  omega

end Failure

namespace Grammar

variable {a : Nat} {c c₁ : Cursor} {f : Failure}

theorem FactorFails.frames_ne_nil (h : FactorFails c f) : f.frames ≠ [] := by
  cases h with
  | operand | unclosed | group => exact List.cons_ne_nil _ _
  | negation => exact List.concat_ne_nil _ _

/-- An expression tries a factor where it begins. -/
theorem Visits.firstFactor {top : Level} {g n : Nat} (h : Visits top c .expr c₁ g n) :
    Visits top c .factor c₁ g n :=
  .operand .and (.operand .or h .first) .first

/-- The description of a failed factor is as long as what is open at some point
    of the descent makes it. -/
theorem FactorFails.length_describe (h : FactorFails c f) :
    ∃ c₁ groups negations, Visits .factor c .factor c₁ groups negations ∧
      f.describe.length = 45 + 78 * groups + 20 * negations := by
  induction h with
  | @operand c =>
      refine ⟨c, 0, 0, .start, ?_⟩
      rw [Failure.length_describe_ofFactor]
      rfl
  | @negation c f hbang hfails ih =>
      obtain ⟨c₁, g, n, hv, hlen⟩ := ih
      have hfactor : "factor".length = 6 := rfl
      refine ⟨c₁, _, _, (Visits.negation .start hbang).trans hv, ?_⟩
      rw [Failure.length_describe_within hfails.frames_ne_nil, hlen, hfactor]
      omega
  | @unclosed c c₁ e =>
      refine ⟨c, 0, 0, .start, ?_⟩
      rw [Failure.length_describe_ofFactor]
      rfl
  | @group c f hopen _ hfails ih =>
      obtain ⟨c₁, g, n, hv, hlen⟩ := ih
      refine ⟨c₁, _, _, (Visits.group .start hopen).firstFactor.trans hv, ?_⟩
      -- what is said inside is said once more, not twice
      rw [Failure.length_describe_ofFactor, Failure.length_describe_ofExpr hfails.frames_ne_nil,
        hlen]
      omega

/-- The message of a failed expression, character by character. -/
theorem length_message (h : expr a c = .failed f) :
    ∃ c₁ groups negations, Visits .expr c .factor c₁ groups negations ∧
      f.message.length = 90 + 78 * groups + 20 * negations := by
  obtain ⟨g, hfactor, rfl⟩ := expr_failed h
  have hfails := factor_fails hfactor
  obtain ⟨c₁, groups, negations, hv, hlen⟩ := hfails.length_describe
  have hplain : (g.ofExpr c.pos).remainder = none := hfails.remainder_eq
  have hwords : "expected ".length = 9 := rfl
  have hstart : Visits .expr c .expr c 0 0 := .start
  refine ⟨c₁, _, _, hstart.firstFactor.trans hv, ?_⟩
  rw [Failure.message, hplain]
  show ("expected " ++ (g.ofExpr c.pos).describe).length = _
  rw [String.length_append, Failure.length_describe_ofExpr hfails.frames_ne_nil, hlen, hwords]
  omega

end Grammar

namespace Reading

open Grammar

variable {text : String}

/-- What is open at a point of the descent stands in the text. -/
theorem open_le_length {level : Level} {c : Cursor} {groups negations : Nat}
    (h : Visits .expr (Cursor.ofString text) level c groups negations) :
    groups + negations ≤ text.length := by
  obtain ⟨-, hg, hn⟩ := h.opened (Cursor.inside_ofString text)
  rw [Cursor.left_ofString] at hg hn
  have hsigns := count_signs_le text.toList
  rw [String.length_toList] at hsigns
  omega

/-- What is left over is part of the text. -/
theorem length_rest_le {a : Nat} {e : Expr} {c : Cursor}
    (h : expr a (Cursor.ofString text) = .parsed e c) : c.rest.length ≤ text.length := by
  have hsize : c.text.size = text.length := by
    rw [((orderly_expr a).of_parsed h).1, Cursor.ofString, List.size_toArray, String.length_toList]
  rw [Cursor.rest, String.length_ofList, Cursor.left, List.length_drop, Array.length_toList, hsize]
  exact Nat.sub_le _ _

/-- MESSAGES ARE LINEAR: whatever is said to a text that is refused has at most
    90 characters and 78 for each character of the text.  If the text does not
    begin with an expression, the message has 90 characters and 78 for each
    parenthesis and 20 for each sign of negation that are open at one point of
    the descent, so that no nesting of them says anything twice.  If something
    is left over, the message quotes it once; and a text that nests too deep is
    told so in 40 characters. -/
theorem messages_linear (text : String) (f : Failure) (h : parse text = .error f) :
    f.message.length ≤ 90 + 78 * text.length ∧
    ((∃ c groups negations,
        Visits .expr (Cursor.ofString text) .factor c groups negations ∧
        f.message.length = 90 + 78 * groups + 20 * negations) ∨
      (∃ rest, f.remainder = some rest ∧ f.message.length = 16 + rest.length ∧
        rest.length ≤ text.length) ∨
      RefusedForDepth text ∧ f.message.length = 40) := by
  rcases parse_error_cases h with ⟨hrun, -⟩ | ⟨e, c, hrun, rfl⟩ | ⟨hdeep, rfl⟩
  · obtain ⟨c, groups, negations, hv, hlen⟩ := length_message hrun
    have hle := open_le_length hv
    exact ⟨by omega, Or.inl ⟨c, groups, negations, hv, hlen⟩⟩
  · have hle := length_rest_le hrun
    have hlen : (Failure.trailing c.rest c.pos).message.length = 16 + c.rest.length :=
      String.length_append ..
    exact ⟨by omega, Or.inr (Or.inl ⟨c.rest, rfl, hlen, hle⟩)⟩
  · have hlen : (ofFault .nestedTooDeeply).message.length = 40 := rfl
    exact ⟨by omega, Or.inr (Or.inr ⟨refusedForDepth_iff.mpr hdeep, hlen⟩)⟩

/-- What is told of a group that is nowhere closed, of signs of negation in
    one, and of what is left over. -/
theorem messages_linear_nested :
    (∃ f, parse "(((" = .error f ∧ f.message.length ≤ 90 + 78 * "(((".length) ∧
    (∃ f, parse "(!!(true&&(false)" = .error f ∧
      f.message.length ≤ 90 + 78 * "(!!(true&&(false)".length) ∧
    ∃ f, parse "true)||((" = .error f ∧ f.remainder = some ")||((" ∧
      f.message.length ≤ 90 + 78 * "true)||((".length :=
  ⟨⟨_, rfl, (messages_linear _ _ rfl).1⟩, ⟨_, rfl, (messages_linear _ _ rfl).1⟩,
    _, rfl, rfl, (messages_linear _ _ rfl).1⟩

end Reading

end TruthExpr
