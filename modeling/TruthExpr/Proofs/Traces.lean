import TruthExpr.Grammar
import TruthExpr.Proofs.FailureShape

/-! # Traces — where a failure and its frames lie

    The frames of a failure tell how the descent has come to where it failed.
    Read from the outermost inwards, their positions go from where the run
    began to where it failed, and never back.  This holds for every start, be
    it before the text or past its end.  The route:

    * `Traced`, with one lemma for each way in which the grammar makes a new
      failure from another: a frame more, or a start further to the left;
    * `FactorFails.traced`: so the failures of a factor are traced, sign by
      sign and group by group;
    * `Rule.traced`: and so are those of every part of the grammar. -/

namespace TruthExpr

/-- A failure of a run from `c` lies between `c` and the end of the text, or at
    `c` if that is past the end.  Its frames lie between `c` and itself, and
    from the innermost to the outermost they come nearer to `c`. -/
structure Failure.Traced (c : Cursor) (f : Failure) : Prop where
  ahead : c.pos ≤ f.position
  inside : f.position ≤ max c.pos c.text.size
  falling : f.frames.Pairwise fun inner outer => outer.position ≤ inner.position
  between : ∀ g ∈ f.frames, c.pos ≤ g.position ∧ g.position ≤ f.position

namespace Failure

variable {c c₁ : Cursor} {f : Failure}

/-- A failure without frames is traced if it lies ahead. -/
theorem traced_of_no_frames {expected : List String} {n : Int} (hle : c.pos ≤ n)
    (hn : n ≤ max c.pos c.text.size) : Traced c { expected, position := n } where
  ahead := hle
  inside := hn
  falling := .nil
  between _ hg := nomatch hg

/-- A failure where the rule began is traced. -/
theorem traced_here (c : Cursor) (expected : List String) :
    Traced c { expected, position := c.pos } :=
  traced_of_no_frames (Int.le_refl _) (Int.le_max_left ..)

namespace Traced

/-- One more active rule that begins at the start. -/
theorem within (h : f.Traced c) (label : String) : (f.within label c.pos).Traced c where
  ahead := h.ahead
  inside := h.inside
  falling := by
    refine List.pairwise_append.mpr ⟨h.falling, List.pairwise_singleton .., ?_⟩
    intro inner hinner outer houter
    rw [List.mem_singleton.mp houter]
    exact (h.between inner hinner).1
  between := by
    intro g hg
    rcases List.mem_append.mp hg with hg | hg
    · exact h.between g hg
    · rw [List.mem_singleton.mp hg]
      exact ⟨Int.le_refl _, h.ahead⟩

/-- What is traced from a cursor of the text is traced from further left. -/
theorem from_left (h : f.Traced c₁) (htext : c₁.text = c.text) (hle : c.pos ≤ c₁.pos)
    (hsize : c₁.pos ≤ c.text.size) : f.Traced c where
  ahead := Int.le_trans hle h.ahead
  inside := by
    have hinside := h.inside
    rw [htext] at hinside
    omega
  falling := h.falling
  between g hg := ⟨Int.le_trans hle (h.between g hg).1, (h.between g hg).2⟩

/-- What is traced from behind a sign is traced from the sign. -/
theorem from_sign {sign : String} (h : f.Traced (c.advance sign.length))
    (hsign : c.startsWith sign = true) : f.Traced c := by
  refine h.from_left rfl ?_ (Cursor.pos_add_length_le hsign)
  show c.pos ≤ c.pos + sign.length
  omega

theorem commit (h : f.Traced c) : f.commit.Traced c :=
  ⟨h.ahead, h.inside, h.falling, h.between⟩

end Traced

theorem traced_ofFactor {missing : String} {n : Int} (hle : c.pos ≤ n)
    (hn : n ≤ max c.pos c.text.size) : (ofFactor c.pos missing n).Traced c := by
  have hplain : Traced c { expected := ["\"!\"", missing, "boolean"], position := n } :=
    traced_of_no_frames hle hn
  exact hplain.within "factor"

end Failure

namespace Grammar

open TruthExpr.Parser

variable {a : Nat} {c c₁ : Cursor} {f : Failure} {e : Expr}

/-- What is read behind an opening parenthesis ends inside the text. -/
theorem of_group_parsed (hrun : expr a (c.advance 1) = .parsed e c₁) :
    c.pos ≤ c₁.pos ∧ c₁.pos ≤ max c.pos c.text.size := by
  obtain ⟨-, hlt, hle⟩ := (orderly_expr a).of_parsed hrun
  change c.pos + 1 < c₁.pos at hlt
  change c₁.pos ≤ c.text.size at hle
  omega

/-- Each way in which a factor fails leaves a trace. -/
theorem FactorFails.traced (h : FactorFails c f) : f.Traced c := by
  induction h with
  | @operand c => exact Failure.traced_ofFactor (Int.le_refl _) (Int.le_max_left ..)
  | @negation c f hbang _ ih =>
      have hinner : f.Traced c := ih.from_sign hbang
      exact hinner.within "factor"
  | @unclosed c c₁ e hopen hrun _ =>
      obtain ⟨hle, hmax⟩ := of_group_parsed hrun
      exact Failure.traced_ofFactor hle hmax
  | @group c f hopen _ _ ih =>
      have hinner : f.Traced c := ih.from_sign hopen
      exact Failure.traced_ofFactor hinner.ahead hinner.inside

/-! ## The parts of the grammar -/

/-- A factor commits itself only inside, where its choice ends that again. -/
theorem factor_traced (h : factor a c = .failed f) : f.Traced c ∧ f.committed = false :=
  ⟨(factor_fails h).traced, (factor_fails h).committed_eq⟩

/-- What stands around a factor does not commit itself either. -/
theorem term_traced (h : term a c = .failed f) : f.Traced c ∧ f.committed = false := by
  obtain ⟨g, hg, rfl⟩ := term_failed h
  obtain ⟨htraced, huncommitted⟩ := factor_traced hg
  exact ⟨htraced.within "term", huncommitted⟩

/-- An expression adds a frame of its own. -/
theorem expr_traced (h : expr a c = .failed f) : f.Traced c ∧ f.committed = false := by
  obtain ⟨g, hg, rfl⟩ := expr_failed h
  obtain ⟨htraced, huncommitted⟩ := factor_traced hg
  exact ⟨(htraced.within "term").within "expr", huncommitted⟩

/-- A negation on its own hands its commitment on. -/
theorem negation_traced (h : negation a c = .failed f) : f.Traced c := by
  cases hbang : c.startsWith "!" with
  | true =>
      rw [negation, negationOf_of_bang hbang] at h
      obtain ⟨g, hg, rfl⟩ := of_mapFailure_failed (of_map_failed h)
      obtain ⟨-, hfactor⟩ := of_paying hg (Outcome.failed_ne_aborted _ _)
      have hinner : g.Traced c := (factor_traced hfactor).1.from_sign hbang
      exact hinner.commit
  | false =>
      rw [negation, negationOf_of_not_bang hbang] at h
      cases h
      exact Failure.traced_here c _

/-- A group fails at a parenthesis, or as its expression does. -/
theorem group_traced (h : group a c = .failed f) : f.Traced c ∧ f.committed = false := by
  cases hopen : c.startsWith "(" with
  | true =>
      rw [group, groupOf_of_opening hopen] at h
      rcases of_followedBy_failed h with hin | ⟨e, c₁, hin, -, rfl⟩
      · obtain ⟨-, hexpr⟩ := of_paying hin (Outcome.failed_ne_aborted _ _)
        obtain ⟨htraced, huncommitted⟩ := expr_traced hexpr
        exact ⟨htraced.from_sign hopen, huncommitted⟩
      · obtain ⟨-, hexpr⟩ := of_paying hin (Outcome.parsed_ne_aborted _ _ _)
        obtain ⟨hle, hmax⟩ := of_group_parsed hexpr
        exact ⟨Failure.traced_of_no_frames hle hmax, rfl⟩
  | false =>
      rw [group, groupOf_of_not_opening hopen] at h
      cases h
      exact ⟨Failure.traced_here c _, rfl⟩

/-- A constant has failed where it was tried. -/
theorem constant_traced (h : constant c = .failed f) : f.Traced c ∧ f.committed = false := by
  obtain ⟨g, -, rfl⟩ := of_mapFailure_failed (of_map_failed h)
  exact ⟨Failure.traced_here c _, rfl⟩

theorem literal_traced {α : Type} {text : String} {value : α}
    (h : literal text value c = .failed f) : f.Traced c ∧ f.committed = false := by
  cases hs : c.startsWith text with
  | true =>
      rw [literal_of_startsWith hs] at h
      cases h
  | false =>
      rw [literal_of_not_startsWith hs] at h
      cases h
      exact ⟨Failure.traced_here c _, rfl⟩

/-- A failure of any part of the grammar is traced, and is committed only if
    that part is a negation. -/
theorem Rule.traced {rule : Rule} (h : rule.parser c = .failed f) :
    f.Traced c ∧ (f.committed = true → rule = .negation) := by
  have huncommitted : f.Traced c ∧ f.committed = false →
      f.Traced c ∧ (f.committed = true → rule = .negation) := by
    rintro ⟨htraced, hf⟩
    refine ⟨htraced, fun hc => ?_⟩
    rw [hf] at hc
    cases hc
  cases rule with
  | expr => exact huncommitted (expr_traced (of_map_failed h))
  | term => exact huncommitted (term_traced (of_map_failed h))
  | factor => exact huncommitted (factor_traced (of_map_failed h))
  | constant => exact huncommitted (constant_traced (of_map_failed h))
  | negation => exact ⟨negation_traced (of_map_failed h), fun _ => rfl⟩
  | group => exact huncommitted (group_traced (of_map_failed h))
  | trueWord | falseWord | bang | andSign | orSign | opening | closing =>
      exact huncommitted (literal_traced (of_map_failed h))

end Grammar

end TruthExpr
