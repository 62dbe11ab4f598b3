import TruthExpr.Expr.View
import TruthExpr.Json.Store

/-! # Objects — what has been filled in reads back as the object of the tree

    To fill in the object of a tree, its operands are entered as objects of
    their own and filled in after it.  Nothing but numbers says which object is
    whose.  The route:

    * `Changes` — filling in one object leaves alone all others that were there
      (`changes_fill`);
    * `Holds` — an object and those its members refer to are those of a tree.
      As long as no object with members is touched, it stays so (`Holds.keep`);
    * an object is only filled in once, so what has been filled in holds the
      tree (`holds_fill`) and reads back as its object (`read_of_holds`). -/

namespace TruthExpr

namespace Json.Store

/-- Fills in the object of a tree. -/
def fill : Expr → Nat → Store → Store
  | .literal b, n, s =>
      s.update n [("type", .value (.string "Literal")), ("value", .value (.bool b))]
  | .not e, n, s =>
      fill e s.size
        (s.update n [("type", .value (.string "Not")), ("operand", .object s.size)]).enter
  | .and l r, n, s =>
      fill r (s.size + 1) <| fill l s.size
        (s.update n [("type", .value (.string "And")), ("left", .object s.size),
          ("right", .object (s.size + 1))]).enter.enter
  | .or l r, n, s =>
      fill r (s.size + 1) <| fill l s.size
        (s.update n [("type", .value (.string "Or")), ("left", .object s.size),
          ("right", .object (s.size + 1))]).enter.enter

/-! ## What is left alone -/

/-- The second store has all objects of the first one, and no other of them has
    changed than number `n`. -/
structure Changes (n : Nat) (s t : Store) : Prop where
  size_le : s.size ≤ t.size
  others : ∀ k, k < s.size → k ≠ n → t.members? k = s.members? k

variable {n m : Nat} {s t u : Store} {e : Expr}

/-- Members are given to one object only. -/
theorem changes_update (n : Nat) (s : Store) (members : List (String × Slot)) :
    Changes n s (s.update n members) where
  size_le := Nat.le_of_eq (s.size_update n members).symm
  others _ _ hk := members?_update_of_ne hk members

/-- An object that is entered was not there before. -/
theorem Changes.enter (h : Changes n s t) : Changes n s t.enter where
  size_le := by
    rw [size_enter]
    exact Nat.le_succ_of_le h.size_le
  others k hk hne := by
    rw [members?_enter_of_lt (Nat.lt_of_lt_of_le hk h.size_le)]
    exact h.others k hk hne

/-- What happens to an object that was not there before is no change. -/
theorem Changes.trans (h : Changes n s t) (h₁ : Changes m t u) (hm : s.size ≤ m) :
    Changes n s u where
  size_le := Nat.le_trans h.size_le h₁.size_le
  others k hk hne := by
    rw [h₁.others k (Nat.lt_of_lt_of_le hk h.size_le) (Nat.ne_of_lt (Nat.lt_of_lt_of_le hk hm))]
    exact h.others k hk hne

/-- To fill in an object is to give members to it and to objects of its own. -/
theorem changes_fill (e : Expr) : ∀ (n : Nat) (s : Store), Changes n s (fill e n s) := by
  induction e with
  | literal b => exact fun n s => changes_update n s _
  | not e ih =>
      intro n s
      exact (changes_update n s _).enter.trans (ih s.size _) (Nat.le_refl _)
  | and l r ihl ihr | or l r ihl ihr =>
      intro n s
      refine Changes.trans ?_ (ihr (s.size + 1) _) (Nat.le_succ _)
      exact (changes_update n s _).enter.enter.trans (ihl s.size _) (Nat.le_refl _)

/-! ## What has been filled in -/

/-- An object gets members, and a new one is entered. -/
theorem members?_update_enter (h : s.members? n = some []) (members : List (String × Slot)) :
    (s.update n members).enter.members? n =
        some (members.foldl (fun ms (name, slot) => setMember name slot ms) []) ∧
      (s.update n members).enter.members? s.size = some [] := by
  constructor
  · rw [members?_enter_of_lt (by rw [size_update]; exact lt_size_of_members? h)]
    exact members?_update_self h members
  · rw [← size_update s n members]
    exact members?_enter_self _

/-- An object gets members, and two new ones are entered. -/
theorem members?_update_enter_enter (h : s.members? n = some [])
    (members : List (String × Slot)) :
    (s.update n members).enter.enter.members? n =
        some (members.foldl (fun ms (name, slot) => setMember name slot ms) []) ∧
      (s.update n members).enter.enter.members? s.size = some [] ∧
      (s.update n members).enter.enter.members? (s.size + 1) = some [] := by
  have hsize : (s.update n members).enter.size = s.size + 1 := by rw [size_enter, size_update]
  obtain ⟨hroot, hfirst⟩ := members?_update_enter h members
  refine ⟨?_, ?_, ?_⟩
  · rw [members?_enter_of_lt (lt_size_of_members? hroot), hroot]
  · rw [members?_enter_of_lt (lt_size_of_members? hfirst), hfirst]
  · rw [← hsize]
    exact members?_enter_self _

/-- The object is that of the tree, and so are those below it. -/
def Holds (s : Store) : Nat → Expr → Prop
  | n, .literal b =>
      s.members? n = some [("type", .value (.string "Literal")), ("value", .value (.bool b))]
  | n, .not e => ∃ k, n < k ∧
      s.members? n = some [("type", .value (.string "Not")), ("operand", .object k)] ∧
      s.Holds k e
  | n, .and l r => ∃ k m, (n < k ∧ n < m) ∧
      s.members? n = some [("type", .value (.string "And")), ("left", .object k),
        ("right", .object m)] ∧
      s.Holds k l ∧ s.Holds m r
  | n, .or l r => ∃ k m, (n < k ∧ n < m) ∧
      s.members? n = some [("type", .value (.string "Or")), ("left", .object k),
        ("right", .object m)] ∧
      s.Holds k l ∧ s.Holds m r

/-- Objects with members are the same in the second store. -/
def Keeps (s t : Store) : Prop :=
  ∀ n members, members ≠ [] → s.members? n = some members → t.members? n = some members

/-- An object without members is none of those that are kept. -/
theorem Changes.keeps (h : Changes n s t) (hn : s.members? n = some []) : Keeps s t := by
  intro k members hne hk
  have hkn : k ≠ n := by
    rintro rfl
    exact hne (Option.some.inj (hk.symm.trans hn))
  exact (h.others k (lt_size_of_members? hk) hkn).trans hk

/-- All objects of a tree have members, so they are kept together. -/
theorem Holds.keep (h : Keeps s t) : ∀ {n : Nat}, s.Holds n e → t.Holds n e := by
  induction e with
  | literal b => exact fun hn => h _ _ (List.cons_ne_nil _ _) hn
  | not e ih =>
      rintro n ⟨k, hk, hn, he⟩
      exact ⟨k, hk, h _ _ (List.cons_ne_nil _ _) hn, ih he⟩
  | and l r ihl ihr | or l r ihl ihr =>
      rintro n ⟨k, m, hkm, hn, hl, hr⟩
      exact ⟨k, m, hkm, h _ _ (List.cons_ne_nil _ _) hn, ihl hl, ihr hr⟩

/-- What holds a tree is in the store. -/
theorem Holds.lt_size (h : s.Holds n e) : n < s.size := by
  cases e with
  | literal b => exact lt_size_of_members? h
  | not e =>
      obtain ⟨k, -, hn, -⟩ := h
      exact lt_size_of_members? hn
  | and l r | or l r =>
      obtain ⟨k, m, -, hn, -⟩ := h
      exact lt_size_of_members? hn

theorem Keeps.trans (h : Keeps s t) (h₁ : Keeps t u) : Keeps s u :=
  fun n members hne hn => h₁ n members hne (h n members hne hn)

/-- Filling in an object without members keeps all that have some. -/
theorem keeps_fill (h : s.members? n = some []) (e : Expr) : Keeps s (fill e n s) :=
  (changes_fill e n s).keeps h

/-- Two objects without members are filled in one after the other, and neither
    gets in the way of the other. -/
theorem holds_fill_both {l r : Expr} (hn : s.members? n = some []) (hm : s.members? m = some [])
    (hne : m ≠ n) (ihl : (fill l n s).Holds n l)
    (ihr : ∀ {s : Store}, s.members? m = some [] → (fill r m s).Holds m r) :
    Keeps s (fill r m (fill l n s)) ∧
      (fill r m (fill l n s)).Holds n l ∧ (fill r m (fill l n s)).Holds m r := by
  have hm₁ : (fill l n s).members? m = some [] :=
    ((changes_fill l n s).others m (lt_size_of_members? hm) hne).trans hm
  exact ⟨(keeps_fill hn l).trans (keeps_fill hm₁ r), ihl.keep (keeps_fill hm₁ r), ihr hm₁⟩

/-- An object without members that is filled in holds the tree. -/
theorem holds_fill (e : Expr) : ∀ {n : Nat} {s : Store},
    s.members? n = some [] → (fill e n s).Holds n e := by
  induction e with
  | literal b => exact fun hn => members?_update_self hn _
  | not e ih =>
      intro n s hn
      have hlt := lt_size_of_members? hn
      obtain ⟨hroot, hnew⟩ := members?_update_enter hn
        [("type", .value (.string "Not")), ("operand", .object s.size)]
      exact ⟨s.size, hlt, keeps_fill hnew e n _ (List.cons_ne_nil _ _) hroot, ih hnew⟩
  | and l r ihl ihr | or l r ihl ihr =>
      intro n s hn
      have hlt := lt_size_of_members? hn
      obtain ⟨hroot, hleft, hright⟩ := members?_update_enter_enter hn _
      obtain ⟨hkeep, hl, hr⟩ := holds_fill_both hleft hright (Nat.succ_ne_self _) (ihl hleft) ihr
      exact ⟨s.size, s.size + 1, ⟨hlt, Nat.lt_succ_of_lt hlt⟩,
        hkeep n _ (List.cons_ne_nil _ _) hroot, hl, hr⟩

/-- What holds a tree reads back as its object, by induction on the tree: each
    operand has a higher number than what it is an operand of. -/
theorem read_of_holds (e : Expr) : ∀ {n : Nat}, s.Holds n e → s.read n = e.toJson := by
  induction e with
  | literal b =>
      intro n h
      rw [read, h]
      rfl
  | not e ih =>
      rintro n ⟨k, hk, hn, he⟩
      rw [read, hn]
      simp [Expr.toJson, ih he, hk, he.lt_size]
  | and l r ihl ihr | or l r ihl ihr =>
      rintro n ⟨k, m, ⟨hk, hm⟩, hn, hl, hr⟩
      rw [read, hn]
      simp [Expr.toJson, ihl hl, ihr hr, hk, hm, hl.lt_size, hr.lt_size]

end Json.Store

end TruthExpr
