import TruthExpr.Parser
import TruthExpr.Proofs.Span

/-! # Matches — what a match of a parser comes from, and what makes one

    For each combinator: the runs of its parts behind a match, and the runs
    of its parts that make it match.  A literal matches where its text spans.
    A choice passes over an alternative that fails without commitment. -/

namespace TruthExpr

namespace Parser

variable {α β : Type} {p : Parser α} {q : Parser β} {c c₁ c₂ : Cursor}

theorem literal_of_startsWith {text : String} (h : c.startsWith text = true) (value : α) :
    literal text value c = .parsed value (c.advance text.length) := if_pos h

/-- A parser fails and leaves the way back open. -/
def Declines (p : Parser α) (c : Cursor) : Prop := ∃ f, p c = .failed f ∧ f.committed = false

/-- Elsewhere it fails, and the way back stays open. -/
theorem declines_literal {text : String} (h : c.startsWith text = false) (value : α) :
    (literal text value).Declines c :=
  ⟨_, if_neg (by rw [h]; exact Bool.false_ne_true), rfl⟩

/-- So a matched literal has read its own text and nothing else. -/
theorem spans_of_literal {text : String} {value x : α} (hc : c.Inside)
    (h : literal text value c = .parsed x c₁) : x = value ∧ c.Spans text.toList c₁ := by
  cases hs : c.startsWith text with
  | true =>
      rw [literal_of_startsWith hs] at h
      cases h
      exact ⟨rfl, (Cursor.startsWith_iff_spans hc text).mp hs⟩
  | false =>
      obtain ⟨f, hf, -⟩ := declines_literal hs value
      rw [hf] at h
      cases h

/-- A changed match comes from a match in the same place. -/
theorem of_map_parsed {f : α → β} {y : β} {o : Outcome α} (h : o.map f = .parsed y c₁) :
    ∃ x, o = .parsed x c₁ ∧ y = f x := by
  cases o <;> cases h
  exact ⟨_, rfl, rfl⟩

theorem of_map_failed {f : α → β} {g : Failure} {o : Outcome α} (h : o.map f = .failed g) :
    o = .failed g := by
  cases o <;> cases h
  rfl

theorem of_mapFailure_parsed {g : Failure → Failure} {x : α} {o : Outcome α}
    (h : o.mapFailure g = .parsed x c₁) : o = .parsed x c₁ := by
  cases o <;> cases h
  rfl

/-- A changed failure comes from a failure. -/
theorem of_mapFailure_failed {g : Failure → Failure} {f : Failure} {o : Outcome α}
    (h : o.mapFailure g = .failed f) : ∃ f₁, o = .failed f₁ ∧ f = g f₁ := by
  cases o <;> cases h
  exact ⟨_, rfl, rfl⟩

/-- Behind a match, the run goes on with what its value calls for. -/
theorem bind_of_parsed {x : α} (h : p c = .parsed x c₁) (k : α → Parser β) :
    p.bind k c = k x c₁ := by
  rw [Parser.bind, h]

/-- What the first parser cannot match is not matched with more behind it. -/
theorem bind_of_failed {f : Failure} (h : p c = .failed f) (k : α → Parser β) :
    p.bind k c = .failed f := by
  rw [Parser.bind, h]

theorem bind_of_aborted {fault : Fault} (h : p c = .aborted fault) (k : α → Parser β) :
    p.bind k c = .aborted fault := by
  rw [Parser.bind, h]

/-- An alternative leaves the way back open if its first part does. -/
theorem Declines.bind (h : p.Declines c) (k : α → Parser β) : (p.bind k).Declines c := by
  obtain ⟨f, hf, hc⟩ := h
  exact ⟨f, bind_of_failed hf k, hc⟩

/-- A match of two parsers in a row is a match of the first, and then of the
    second. -/
theorem of_bind_parsed {k : α → Parser β} {y : β} (h : p.bind k c = .parsed y c₂) :
    ∃ x c₁, p c = .parsed x c₁ ∧ k x c₁ = .parsed y c₂ := by
  unfold Parser.bind at h
  cases hp : p c <;> rw [hp] at h
  · exact ⟨_, _, rfl, h⟩
  · cases h
  · cases h

/-- A choice only matches what one of its alternatives matches. -/
theorem of_tryAll_parsed {ps : List (Parser α)} {failures : List Failure} {x : α}
    (h : tryAll ps failures c = .parsed x c₁) : ∃ p ∈ ps, p c = .parsed x c₁ := by
  induction ps generalizing failures with
  | nil =>
      unfold tryAll at h
      cases hm : Failure.merge? failures <;> rw [hm] at h <;> cases h
  | cons p ps ih =>
      unfold tryAll at h
      cases hp : p c with
      | parsed y c₂ =>
          rw [hp] at h
          exact ⟨p, List.mem_cons_self .., hp.trans h⟩
      | failed f =>
          rw [hp] at h
          dsimp only at h
          split at h
          · cases h
          · obtain ⟨p', hmem, hp'⟩ := ih h
            exact ⟨p', List.mem_cons_of_mem _ hmem, hp'⟩
      | aborted fault => rw [hp] at h; cases h

/-- The first alternative that matches is the choice. -/
theorem tryAll_of_parsed {ps : List (Parser α)} {x : α} (h : p c = .parsed x c₁)
    (failures : List Failure) : tryAll (p :: ps) failures c = .parsed x c₁ := by
  rw [tryAll, h]

/-- An alternative that leaves the way back open is passed over, whatever its
    failure adds to the others. -/
theorem tryAll_of_declines {ps : List (Parser α)} {o : Outcome α} (h : p.Declines c)
    (hps : ∀ failures, tryAll ps failures c = o) (failures : List Failure) :
    tryAll (p :: ps) failures c = o := by
  obtain ⟨f, hf, hc⟩ := h
  have hpass : tryAll (p :: ps) failures c = tryAll ps (failures ++ [f]) c := by
    rw [tryAll]
    simp [hf, hc]
  rw [hpass]
  exact hps _

end Parser

end TruthExpr
