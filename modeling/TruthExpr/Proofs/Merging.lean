import Mathlib.Data.List.Basic
import Mathlib.Data.List.Induction
import TruthExpr.Failure

/-! # Merging — what is left of several failures

    A choice whose alternatives have all failed has one failure to report for
    all of them.  Each alternative tells itself in its own words, with its own
    rules, and what it has told becomes one expectation of the merged failure.
    The route:

    * `merge?_eq`: position and expectations of the merged failure are put
      together apart from each other;
    * `max?_of_covers`: the furthest position does not depend on the order of
      the failures, nor on how often each of them occurs;
    * `pairwise_idxOf_eraseDups`: what is told is said once, in the order in
      which it is told first;
    * `merge_sums_up` puts both together. -/

namespace TruthExpr

namespace Failure

variable {fs : List Failure} {m : Failure} {n : Int}

/-- The two halves of a merged failure. -/
theorem merge?_eq (fs : List Failure) :
    merge? fs = (fs.map position).max?.map fun n =>
      { expected := (fs.map describe).eraseDups, position := n } := by
  cases fs with
  | nil => rfl
  | cons f fs =>
      show _ = (f.position :: fs.map position).max?.map _
      rw [List.max?_cons', List.foldl_map]
      rfl

/-- With a furthest position there is a merged failure, and it lies there. -/
theorem merge?_of_max? (h : (fs.map position).max? = some n) :
    merge? fs = some { expected := (fs.map describe).eraseDups, position := n } := by
  rw [merge?_eq, h]
  rfl

/-- A merged failure lies at the furthest position and leaves the way back
    open. -/
theorem of_merge? (h : merge? fs = some m) :
    (fs.map position).max? = some m.position ∧ m.committed = false := by
  rw [merge?_eq] at h
  obtain ⟨n, hn, rfl⟩ := Option.map_eq_some_iff.mp h
  exact ⟨hn, rfl⟩

/-- Only where nothing has failed there is no merged failure. -/
theorem exists_merge? (h : fs ≠ []) : ∃ m, merge? fs = some m := by
  obtain ⟨f, rest, rfl⟩ := List.exists_cons_of_ne_nil h
  exact ⟨_, rfl⟩

/-! ## The furthest position -/

/-- Rows of positions reach equally far if each of them covers the other. -/
theorem max?_of_covers {ns ks : List Int} (hn : ns.max? = some n)
    (h : ∀ k ∈ ns, ∃ l ∈ ks, k ≤ l) (h₁ : ∀ l ∈ ks, ∃ k ∈ ns, l ≤ k) : ks.max? = some n := by
  rw [List.max?_eq_some_iff] at hn ⊢
  obtain ⟨hmem, hle⟩ := hn
  have hbound : ∀ l ∈ ks, l ≤ n := by
    intro l hl
    obtain ⟨k, hk, hlk⟩ := h₁ l hl
    exact Int.le_trans hlk (hle k hk)
  obtain ⟨l, hl, hnl⟩ := h n hmem
  obtain rfl := Int.le_antisymm hnl (hbound l hl)
  exact ⟨hl, hbound⟩

/-- The same positions in any order, and any number of times. -/
theorem max?_of_mem_iff {ns ks : List Int} (hn : ns.max? = some n)
    (h : ∀ k, k ∈ ks ↔ k ∈ ns) : ks.max? = some n :=
  max?_of_covers hn (fun k hk => ⟨k, (h k).mpr hk, Int.le_refl k⟩)
    fun l hl => ⟨l, (h l).mp hl, Int.le_refl l⟩

/-- Some of several failures may be merged first: all of them come equally
    far. -/
theorem position_of_merged_part {fs gs hs : List Failure} {m f g : Failure}
    (hm : merge? gs = some m) (hf : merge? (fs ++ m :: hs) = some f)
    (hg : merge? (fs ++ (gs ++ hs)) = some g) : f.position = g.position := by
  obtain ⟨hmem, hle⟩ := List.max?_eq_some_iff.mp (of_merge? hm).1
  have hflat := (of_merge? hg).1
  have hnested := (of_merge? hf).1
  simp only [List.map_append, List.map_cons] at hflat hnested
  refine Option.some.inj (hnested.symm.trans (max?_of_covers hflat ?_ ?_))
  · intro k hk
    rcases List.mem_append.mp hk with hk | hk
    · exact ⟨k, List.mem_append_left _ hk, Int.le_refl k⟩
    · rcases List.mem_append.mp hk with hk | hk
      · -- what has been merged is covered by the merged failure
        exact ⟨m.position, List.mem_append_right _ (List.mem_cons_self ..), hle k hk⟩
      · exact ⟨k, List.mem_append_right _ (List.mem_cons_of_mem _ hk), Int.le_refl k⟩
  · intro k hk
    refine ⟨k, ?_, Int.le_refl k⟩
    rcases List.mem_append.mp hk with hk | hk
    · exact List.mem_append_left _ hk
    · rcases List.mem_cons.mp hk with rfl | hk
      · exact List.mem_append_right _ (List.mem_append_left _ hmem)
      · exact List.mem_append_right _ (List.mem_append_right _ hk)

/-! ## What is told -/

theorem describe_of_no_frames (text : String) (position : Int) :
    describe { expected := [text], position } = text := by
  show text ++ "" = text
  rw [String.append_empty]

/-- What is kept of a row stands in the order of its first occurrences. -/
theorem pairwise_idxOf_eraseDups {α : Type} [BEq α] [LawfulBEq α] (ds : List α) :
    ds.eraseDups.Pairwise fun d e => ds.idxOf d < ds.idxOf e := by
  induction ds using List.reverseRecOn with
  | nil => exact .nil
  | append_singleton ds x ih =>
      -- the last of a row does not move what stands before it
      have hold : ds.eraseDups.Pairwise fun d e => (ds ++ [x]).idxOf d < (ds ++ [x]).idxOf e := by
        refine ih.imp_of_mem ?_
        intro d e hd he hlt
        rw [List.idxOf_append_of_mem (List.mem_eraseDups.mp hd),
          List.idxOf_append_of_mem (List.mem_eraseDups.mp he)]
        exact hlt
      rw [List.eraseDups_append]
      by_cases hx : x ∈ ds
      · have hnone : [x].removeAll ds = [] := by simp [List.removeAll, hx]
        rw [hnone, List.eraseDups_nil, List.append_nil]
        exact hold
      · have hone : [x].removeAll ds = [x] := by simp [List.removeAll, hx]
        rw [hone]
        show (ds.eraseDups ++ [x]).Pairwise _
        refine List.pairwise_append.mpr ⟨hold, List.pairwise_singleton .., ?_⟩
        intro d hd e he
        have hlt := List.idxOf_lt_length_of_mem (List.mem_eraseDups.mp hd)
        rw [List.mem_singleton.mp he, List.idxOf_append_of_notMem hx,
          List.idxOf_append_of_mem (List.mem_eraseDups.mp hd)]
        omega

/-- What has been told is not told again. -/
theorem eraseDups_append_self {α : Type} [BEq α] [LawfulBEq α] (ds : List α) :
    (ds ++ ds).eraseDups = ds.eraseDups := by
  have hnone : ds.removeAll ds = [] := by
    rw [List.removeAll, List.filter_eq_nil_iff]
    intro d hd
    simp [hd]
  rw [List.eraseDups_append, hnone, List.eraseDups_nil, List.append_nil]

/-! ## The merged failure -/

/-- One failure is merged to what it tells, where it lies. -/
theorem merge?_singleton (m : Failure) :
    merge? [m] = some { expected := [m.describe], position := m.position } := rfl

/-- MERGING SUMS UP: failures of any kind are merged to one with no rules, no
    left-over text and no commitment.  It lies at the furthest of their
    positions, and it expects just what they tell, each thing once and in the
    order in which it is told first.  So their order matters neither to the
    position nor to what is expected, though it does to the order of it; to
    merge them twice over is to merge them once; and what is merged again by
    itself says the same in the same place. -/
theorem merge_sums_up (fs : List Failure) (h : fs ≠ []) :
    ∃ m, merge? fs = some m ∧
      (m.frames = [] ∧ m.remainder = none ∧ m.committed = false) ∧
      ((∃ f ∈ fs, f.position = m.position) ∧ ∀ f ∈ fs, f.position ≤ m.position) ∧
      ((∀ d, d ∈ m.expected ↔ ∃ f ∈ fs, f.describe = d) ∧ m.expected.Nodup ∧
        m.expected.Pairwise fun d e =>
          (fs.map describe).idxOf d < (fs.map describe).idxOf e) ∧
      (∀ gs, gs.Perm fs → ∃ g, merge? gs = some g ∧ g.position = m.position ∧
        ∀ d, d ∈ g.expected ↔ d ∈ m.expected) ∧
      merge? (fs ++ fs) = some m ∧
      ∃ g, merge? [m] = some g ∧ g.describe = m.describe ∧ g.message = m.message ∧
        g.position = m.position := by
  obtain ⟨m, hm⟩ := exists_merge? h
  obtain ⟨n, hn⟩ : ∃ n, (fs.map position).max? = some n := ⟨_, (of_merge? hm).1⟩
  obtain ⟨hmem, hle⟩ := List.max?_eq_some_iff.mp hn
  have horder := pairwise_idxOf_eraseDups (fs.map describe)
  refine ⟨_, merge?_of_max? hn, ⟨rfl, rfl, rfl⟩, ⟨List.mem_map.mp hmem, ?_⟩,
    ⟨?_, ?_, horder⟩, ?_, ?_, _, merge?_singleton _, ?_, ?_, rfl⟩
  · intro f hf
    exact hle _ (List.mem_map_of_mem hf)
  · intro d
    rw [List.mem_eraseDups, List.mem_map]
  · refine horder.imp ?_
    rintro d e hlt rfl
    exact Nat.lt_irrefl _ hlt
  · intro gs hperm
    refine ⟨_, merge?_of_max? (max?_of_mem_iff hn fun k => (hperm.map position).mem_iff), rfl, ?_⟩
    intro d
    rw [List.mem_eraseDups, List.mem_eraseDups]
    exact (hperm.map describe).mem_iff
  · have htwice : ((fs ++ fs).map position).max? = some n := by
      refine max?_of_mem_iff hn fun k => ?_
      rw [List.map_append, List.mem_append, or_self]
    rw [merge?_of_max? htwice, List.map_append, eraseDups_append_self]
  · exact describe_of_no_frames _ _
  · exact congrArg ("expected " ++ ·) (describe_of_no_frames _ _)

/-- Two failures that are not alike may tell the same, and the first of them
    is not the one that has come furthest. -/
theorem merge_sums_up_told_alike :
    let fs : List Failure :=
      [{ expected := ["\"!\"", "boolean"], position := 3, frames := [⟨"factor", 1⟩],
         committed := true },
       { expected := ["\")\""], position := 7 },
       { expected := ["\"!\" or boolean while processing factor"], position := -2,
         remainder := some ")" }]
    fs ≠ [] ∧ ∃ m, merge? fs = some m ∧ m.position = 7 ∧
      m.expected = ["\"!\" or boolean while processing factor", "\")\""] ∧
      merge? (fs ++ fs) = some m := by
  intro fs
  have hne : fs ≠ [] := List.cons_ne_nil _ _
  obtain ⟨m, hm, -, -, -, -, htwice, -⟩ := merge_sums_up fs hne
  cases hm
  exact ⟨hne, _, rfl, rfl, rfl, htwice⟩

end Failure

end TruthExpr
