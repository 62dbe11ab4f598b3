import TruthExpr.Proofs.RoundTrip
import TruthExpr.Proofs.Spelling

/-! # Replacing groups — what stands in parentheses counts by its tree alone

    A group is a unit wherever it stands: its first parenthesis is a token of
    its own, so it begins between whole tokens; what the machine does with the
    whole group depends on nothing but the tree inside (`feed_group`).  So two
    groups with one tree can stand for each other in every text, be it a
    sentence or not (`derives_replace_group`). -/

namespace TruthExpr

/-- A text in parentheses. -/
def grouped (s : List Char) : List Char := "(".toList ++ s ++ ")".toList

namespace Machine

/-- The machine after a group with a given tree, if it can take one. -/
def afterGroup (e : Expr) : Machine → Option Machine
  | .wantsOperand stack => some (closeOperand e stack)
  | .wantsOperator _ _ => none

/-- The tokens of a group do to the machine what its tree says, in every
    state. -/
theorem feed_group {s : List Char} {e : Expr} (h : Derives .expr s e) :
    ∃ ts, grouped s = spell ts ∧ ∀ m : Machine, m.feed ts = afterGroup e m := by
  obtain ⟨ts, hspell, hfeeds⟩ := h.group.feeds
  refine ⟨ts, hspell, ?_⟩
  intro m
  cases m with
  | wantsOperand stack => exact hfeeds stack
  | wantsOperator x stack =>
      -- a group begins with its parenthesis, which can only open an operand
      have hopening : spell [.opening] ++ (s ++ ")".toList) = spell ts := by
        rw [← hspell, spell_singleton]
        rfl
      obtain ⟨us, rfl, -⟩ := spell_prefix hopening
      rfl

end Machine

open Machine in
/-- A group can stand for another one with the same tree. -/
theorem derives_replace_group {a b s s₁ : List Char} {e x : Expr} (hs : Derives .expr s e)
    (hs₁ : Derives .expr s₁ e) (h : Derives .expr (a ++ grouped s ++ b) x) :
    Derives .expr (a ++ grouped s₁ ++ b) x := by
  obtain ⟨gs, hgs, hfeed⟩ := feed_group hs
  obtain ⟨gs₁, hgs₁, hfeed₁⟩ := feed_group hs₁
  rw [← read_eq_ok_iff, read_ok_iff] at h ⊢
  obtain ⟨us, m, hspell, hus, hfin⟩ := h
  -- the text in front of the group falls into whole tokens
  obtain ⟨ts, vs, rfl, rfl, hrest⟩ := opening_of_spell (a := a) (r := s ++ ")".toList ++ b)
    (by rw [← hspell]; simp [grouped])
  have hgroup : spell gs ++ b = spell (.opening :: vs) := by
    rw [spell_cons, ← hrest, ← hgs]
    simp [grouped, Token.text]
  -- so do the group and the text behind it
  obtain ⟨ws, hws, rfl⟩ := spell_prefix hgroup
  rw [hws] at hus
  refine ⟨ts ++ (gs₁ ++ ws), m, ?_, ?_, hfin⟩
  · rw [spell_append, spell_append, ← hgs₁, List.append_assoc]
  · rw [← hus, feed_bind, feed_bind]
    congr 1
    funext m₁
    rw [feed_bind, feed_bind, hfeed, hfeed₁]

theorem derives_group_iff {a b s s₁ : List Char} {e : Expr} (hs : Derives .expr s e)
    (hs₁ : Derives .expr s₁ e) (x : Expr) :
    Derives .expr (a ++ grouped s ++ b) x ↔ Derives .expr (a ++ grouped s₁ ++ b) x :=
  ⟨derives_replace_group hs hs₁, derives_replace_group hs₁ hs⟩

namespace Reading

/-- The text is accepted with the tree `e`. -/
def Accepts (text : String) (e : Expr) : Prop := ∃ c, parse text = .ok (e, c)

/-- A text in parentheses, `n` times over. -/
def enclosed : Nat → String → String
  | 0, s => s
  | n + 1, s => "(" ++ enclosed n s ++ ")"

theorem accepts_iff {text : String} {e : Expr} : Accepts text e ↔ Derives .expr text.toList e := by
  constructor
  · rintro ⟨c, hc⟩
    exact (parse_ok_iff.mp hc).1
  · intro h
    exact ⟨_, parse_of_derives h⟩

theorem accepts_enclosed {s : String} {e : Expr} (h : Derives .expr s.toList e) (n : Nat) :
    Derives .expr (enclosed n s).toList e := by
  induction n with
  | zero => exact h
  | succ n ih =>
      show Derives .expr ("(" ++ enclosed n s ++ ")").toList e
      rw [String.toList_append, String.toList_append]
      exact .ofTerm (.ofFactor (.group ih))

/-- GROUPS ARE TRANSPARENT: in any text, before and behind anything at all, a
    text in parentheses that is read as some tree can be replaced by any other
    that is read as the same tree.  What is accepted, and with which tree,
    stays as it is.  In particular this holds for the source text of the tree
    and for any number of further parentheses inside. -/
theorem group_transparent (a b s s₁ : String) (e : Expr) (hs : readExpr s = .ok e)
    (hs₁ : readExpr s₁ = .ok e) :
    (∀ x, Accepts (a ++ "(" ++ s ++ ")" ++ b) x ↔ Accepts (a ++ "(" ++ s₁ ++ ")" ++ b) x) ∧
    (∀ x, Accepts (a ++ "(" ++ s ++ ")" ++ b) x ↔ Accepts (a ++ "(" ++ e.source ++ ")" ++ b) x) ∧
    (∀ n k x, Accepts (a ++ "(" ++ enclosed n s ++ ")" ++ b) x ↔
      Accepts (a ++ "(" ++ enclosed k s ++ ")" ++ b) x) := by
  have hreplace : ∀ {t t₁ : String}, Derives .expr t.toList e → Derives .expr t₁.toList e →
      ∀ x, Accepts (a ++ "(" ++ t ++ ")" ++ b) x ↔ Accepts (a ++ "(" ++ t₁ ++ ")" ++ b) x := by
    intro t t₁ ht ht₁ x
    have htext : ∀ t : String, (a ++ "(" ++ t ++ ")" ++ b).toList =
        a.toList ++ grouped t.toList ++ b.toList := by
      intro t
      simp only [String.toList_append, grouped, List.append_assoc]
    rw [accepts_iff, accepts_iff, htext, htext]
    exact derives_group_iff ht ht₁ x
  have hd := readExpr_ok_iff.mp hs
  refine ⟨hreplace hd (readExpr_ok_iff.mp hs₁), hreplace hd e.expr_derives_source, ?_⟩
  intro n k
  exact hreplace (accepts_enclosed hd n) (accepts_enclosed hd k)

/-- Behind a negation and inside a longer chain, needless parentheses make no
    difference. -/
theorem group_transparent_negated :
    readExpr "true&&(false)" = .ok (.and (.literal true) (.literal false)) ∧
    readExpr "((true)&&false)" = .ok (.and (.literal true) (.literal false)) ∧
    Accepts ("true||!" ++ "(" ++ "((true)&&false)" ++ ")" ++ "&&false")
      (.or (.literal true)
        (.and (.not (.and (.literal true) (.literal false))) (.literal false))) := by
  have h : Accepts ("true||!" ++ "(" ++ "true&&(false)" ++ ")" ++ "&&false")
      (.or (.literal true)
        (.and (.not (.and (.literal true) (.literal false))) (.literal false))) := ⟨_, rfl⟩
  exact ⟨rfl, rfl, ((group_transparent "true||!" "&&false" _ "((true)&&false)" _ rfl rfl).1 _).mp h⟩

end Reading

end TruthExpr
