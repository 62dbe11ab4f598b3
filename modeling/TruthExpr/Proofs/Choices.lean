import Mathlib.Data.List.Forall2
import TruthExpr.Proofs.Match
import TruthExpr.Proofs.Merging

/-! # Choices — what comes of several alternatives in a row

    The alternatives of a choice are tried one after the other, so a choice
    among many is decided list by list: the first list in which something
    matches decides it, and a list in which all decline only leaves its
    failures behind.  The route:

    * `matched_or_refused`: for alternatives that leave the way back open there
      is nothing else;
    * `of_choice_failed`: a choice that fails has been given up by one of its
      alternatives, or has merged the failures of all of them;
    * `nested_choices_flatten`: a choice in the place of its own alternatives
      is tried like them, and hides how far they have come just as little. -/

namespace TruthExpr

variable {α : Type}

namespace Parser

variable {ps bs cs : List (Parser α)} {c c₁ : Cursor} {f : Failure} {fs : List Failure}

/-- A parser matches, or it fails and leaves the way back open. -/
def Yields (p : Parser α) (c : Cursor) : Prop :=
  (∃ x c₁, p c = .parsed x c₁) ∨ p.Declines c

/-- The failures of alternatives that all leave the way back open, one for each
    and in their order. -/
def Refusals (ps : List (Parser α)) (c : Cursor) (fs : List Failure) : Prop :=
  List.Forall₂ (fun p f => p c = .failed f ∧ f.committed = false) ps fs

theorem Refusals.ne_nil (h : Refusals ps c fs) (hps : ps ≠ []) : fs ≠ [] := by
  cases h with
  | nil => exact absurd rfl hps
  | cons => exact List.cons_ne_nil _ _

/-- Each of the failures is that of an alternative. -/
theorem Refusals.exists_of_mem (h : Refusals ps c fs) (hf : f ∈ fs) :
    ∃ p ∈ ps, p c = .failed f := by
  induction h with
  | nil => cases hf
  | @cons p g ps fs hp _ ih =>
      rcases List.mem_cons.mp hf with rfl | hf
      · exact ⟨p, List.mem_cons_self .., hp.1⟩
      · obtain ⟨q, hq, hrun⟩ := ih hf
        exact ⟨q, List.mem_cons_of_mem _ hq, hrun⟩

/-! ## List by list -/

theorem tryAll_of_failed {p : Parser α} (h : p c = .failed f) (hf : f.committed = false)
    (ps : List (Parser α)) (failures : List Failure) :
    tryAll (p :: ps) failures c = tryAll ps (failures ++ [f]) c := by
  rw [tryAll, h]
  simp only [hf, Bool.false_eq_true, if_false]

/-- Alternatives that have all declined leave their failures behind. -/
theorem Refusals.tryAll_append (h : Refusals ps c fs) (more : List (Parser α)) :
    ∀ failures, tryAll (ps ++ more) failures c = tryAll more (failures ++ fs) c := by
  induction h with
  | nil => intro failures; rw [List.nil_append, List.append_nil]
  | @cons p f ps fs hp _ ih =>
      intro failures
      rw [List.cons_append, tryAll_of_failed hp.1 hp.2, ih, List.append_assoc]
      rfl

/-- At the end they are merged with the failures before them. -/
theorem Refusals.tryAll_eq (h : Refusals ps c fs) {failures : List Failure}
    (hf : Failure.merge? (failures ++ fs) = some f) : tryAll ps failures c = .failed f := by
  have htry := h.tryAll_append [] failures
  rw [List.append_nil] at htry
  rw [htry, tryAll, hf]

/-- One of the alternatives matches, whatever else there is to try, or they all
    decline. -/
theorem matched_or_refused (h : ∀ p ∈ ps, p.Yields c) :
    (∃ x c₁, ∀ more failures, tryAll (ps ++ more) failures c = .parsed x c₁) ∨
      ∃ fs, Refusals ps c fs := by
  induction ps with
  | nil => exact Or.inr ⟨[], .nil⟩
  | cons p ps ih =>
      rcases h p (List.mem_cons_self ..) with ⟨x, c₁, hp⟩ | ⟨f, hp, hf⟩
      · exact Or.inl ⟨x, c₁, fun more failures => tryAll_of_parsed hp failures⟩
      · rcases ih fun q hq => h q (List.mem_cons_of_mem _ hq) with ⟨x, c₁, hps⟩ | ⟨fs, hps⟩
        · refine Or.inl ⟨x, c₁, fun more failures => ?_⟩
          rw [List.cons_append, tryAll_of_failed hp hf]
          exact hps more _
        · exact Or.inr ⟨f :: fs, .cons ⟨hp, hf⟩ hps⟩

/-- Attempts that fail have been given up by one alternative, or all of them
    have declined. -/
theorem of_tryAll_refused {failures : List Failure} (h : tryAll ps failures c = .failed f) :
    (∃ p ∈ ps, ∃ g, p c = .failed g ∧ g.committed = true ∧ f = g.release) ∨
      ∃ fs, Refusals ps c fs ∧ Failure.merge? (failures ++ fs) = some f := by
  induction ps generalizing failures with
  | nil =>
      rw [tryAll] at h
      cases hm : Failure.merge? failures with
      | none => rw [hm] at h; cases h
      | some m =>
          rw [hm] at h
          cases h
          exact Or.inr ⟨[], .nil, by rw [List.append_nil, hm]⟩
  | cons p ps ih =>
      rw [tryAll] at h
      cases hp : p c with
      | parsed x c₁ => rw [hp] at h; cases h
      | failed g =>
          rw [hp] at h
          by_cases hg : g.committed = true
          · simp only [if_pos hg] at h
            cases h
            exact Or.inl ⟨p, List.mem_cons_self .., g, hp, hg, rfl⟩
          · simp only [if_neg hg] at h
            rcases ih h with ⟨q, hq, hrest⟩ | ⟨fs, hfs, hm⟩
            · exact Or.inl ⟨q, List.mem_cons_of_mem _ hq, hrest⟩
            · rw [List.append_assoc] at hm
              exact Or.inr ⟨g :: fs, .cons ⟨hp, Bool.eq_false_iff.mpr hg⟩ hfs, hm⟩
      | aborted fault => rw [hp] at h; cases h

/-- A choice that fails merges a failure of each alternative, and there is at
    least one, unless a committed one has made it give up. -/
theorem of_choice_failed (h : choice ps c = .failed f) :
    (∃ p ∈ ps, ∃ g, p c = .failed g ∧ g.committed = true ∧ f = g.release) ∨
      ∃ g gs, Refusals ps c (g :: gs) ∧ f = Failure.merge g gs := by
  rcases of_tryAll_refused h with hgiven | ⟨fs, hfs, hm⟩
  · exact Or.inl hgiven
  · cases fs with
    | nil => cases hm
    | cons g gs =>
        cases hm
        exact Or.inr ⟨g, gs, hfs, rfl⟩

/-- A choice fails where one of its alternatives does. -/
theorem position_of_choice (h : choice ps c = .failed f) :
    ∃ p ∈ ps, ∃ g, p c = .failed g ∧ f.position = g.position := by
  rcases of_choice_failed h with ⟨p, hp, g, hg, -, rfl⟩ | ⟨g, gs, hrefused, rfl⟩
  · exact ⟨p, hp, g, hg, rfl⟩
  · have hm : Failure.merge? (g :: gs) = some (Failure.merge g gs) := rfl
    obtain ⟨hmem, -⟩ := List.max?_eq_some_iff.mp (Failure.of_merge? hm).1
    obtain ⟨g₁, hg₁, hpos⟩ := List.mem_map.mp hmem
    obtain ⟨p, hp, hrun⟩ := hrefused.exists_of_mem hg₁
    exact ⟨p, hp, g₁, hrun, hpos.symm⟩

/-! ## Choices in choices -/

/-- NESTED CHOICES FLATTEN: among alternatives that leave the way back open, a
    choice that is made of some of them may be replaced by these.  Both ways
    the same alternative matches, with the same value and the same end, or
    nothing does and the failure is uncommitted and lies in the same place. -/
theorem nested_choices_flatten (as bs cs : List (Parser α)) (hbs : bs ≠ []) (c : Cursor)
    (h : ∀ p ∈ as ++ bs ++ cs, p.Yields c) :
    (∃ x c₁, choice (as ++ choice bs :: cs) c = .parsed x c₁ ∧
      choice (as ++ bs ++ cs) c = .parsed x c₁) ∨
    ∃ f g, choice (as ++ choice bs :: cs) c = .failed f ∧
      choice (as ++ bs ++ cs) c = .failed g ∧
      f.committed = false ∧ g.committed = false ∧ f.position = g.position := by
  rw [List.append_assoc] at h ⊢
  obtain ⟨has, hrest⟩ := List.forall_mem_append.mp h
  obtain ⟨hbs₁, hcs⟩ := List.forall_mem_append.mp hrest
  rcases matched_or_refused has with ⟨x, c₁, hx⟩ | ⟨fs, hfs⟩
  · exact Or.inl ⟨x, c₁, hx _ [], hx _ []⟩
  -- nothing before the inner alternatives matches
  have hnested := hfs.tryAll_append (choice bs :: cs) []
  have hflat := hfs.tryAll_append (bs ++ cs) []
  rcases matched_or_refused hbs₁ with ⟨x, c₁, hx⟩ | ⟨gs, hgs⟩
  · have hinner : choice bs c = .parsed x c₁ := by
      rw [choice, ← List.append_nil bs]
      exact hx [] []
    exact Or.inl ⟨x, c₁, hnested.trans (tryAll_of_parsed hinner fs), hflat.trans (hx cs fs)⟩
  -- nor does any of these, so what is behind them is tried both ways
  obtain ⟨m, hm⟩ := Failure.exists_merge? (hgs.ne_nil hbs)
  have hinner : choice bs c = .failed m := hgs.tryAll_eq hm
  rw [tryAll_of_failed hinner (Failure.of_merge? hm).2] at hnested
  rw [hgs.tryAll_append cs] at hflat
  rcases matched_or_refused hcs with ⟨x, c₁, hx⟩ | ⟨hs, hhs⟩
  · have hlast : ∀ failures, tryAll cs failures c = .parsed x c₁ := by
      intro failures
      rw [← List.append_nil cs]
      exact hx [] failures
    exact Or.inl ⟨x, c₁, hnested.trans (hlast _), hflat.trans (hlast _)⟩
  · have hne : fs ++ m :: hs ≠ [] := by simp
    have hne₁ : fs ++ (gs ++ hs) ≠ [] := by simp [hgs.ne_nil hbs]
    obtain ⟨f, hf⟩ := Failure.exists_merge? hne
    obtain ⟨g, hg⟩ := Failure.exists_merge? hne₁
    refine Or.inr ⟨f, g, hnested.trans (hhs.tryAll_eq ?_), hflat.trans (hhs.tryAll_eq ?_),
      (Failure.of_merge? hf).2, (Failure.of_merge? hg).2, Failure.position_of_merged_part hm hf hg⟩
    · rw [List.append_assoc]
      exact hf
    · rw [List.append_assoc]
      exact hg

/-- An alternative of the inner choice comes furthest.  What it lacks is told
    apart from its neighbour in one case and together with it in the other,
    but in the same place. -/
theorem nested_choices_flatten_furthest_inside :
    let as : List (Parser Char) := [literal "a" 'a']
    let bs : List (Parser Char) := [(literal "t" 't').andThen (literal "r" 'r'), literal "b" 'b']
    let cs : List (Parser Char) := [literal "c" 'c']
    let c := Cursor.ofString "tx"
    bs ≠ [] ∧ (∀ p ∈ as ++ bs ++ cs, p.Yields c) ∧
      ∃ f g, choice (as ++ choice bs :: cs) c = .failed f ∧
        choice (as ++ bs ++ cs) c = .failed g ∧
        f.expected = ["\"a\"", "\"r\" or \"b\"", "\"c\""] ∧
        g.expected = ["\"a\"", "\"r\"", "\"b\"", "\"c\""] ∧
        f.position = 1 ∧ f.position = g.position := by
  intro as bs cs c
  have hbs : bs ≠ [] := List.cons_ne_nil _ _
  have hyields : ∀ p ∈ as ++ bs ++ cs, p.Yields c := by
    have hdeclines : ∀ p ∈ as ++ bs ++ cs, p.Declines c :=
      List.forall_mem_cons.mpr ⟨⟨_, rfl, rfl⟩, List.forall_mem_cons.mpr ⟨⟨_, rfl, rfl⟩,
        List.forall_mem_cons.mpr ⟨⟨_, rfl, rfl⟩, List.forall_mem_singleton.mpr ⟨_, rfl, rfl⟩⟩⟩⟩
    exact fun p hp => Or.inr (hdeclines p hp)
  refine ⟨hbs, hyields, ?_⟩
  rcases nested_choices_flatten as bs cs hbs c hyields with
    ⟨x, c₁, hx, -⟩ | ⟨f, g, hf, hg, -, -, hpos⟩
  · cases hx
  · cases hf
    cases hg
    exact ⟨_, _, rfl, rfl, rfl, rfl, rfl, hpos⟩

end Parser

end TruthExpr
