import TruthExpr.Expr.Draft
import TruthExpr.Expr.View
import TruthExpr.Proofs.Objects

/-! # Drafts — what the four walks come to

    Each walk is brought back to recursion on the draft: whatever else is on the
    pile, a draft on top of it is worked off completely, or ends the walk
    (`Walk.run_cons`).  So the walks that have the left operand on top of the
    right one refuse the leftmost foreign leaf, the one that has the right
    operand on top refuses the rightmost one, and without foreign leaves they
    make of the draft what is made of the tree. -/

namespace TruthExpr

/-- The foreign leaf that something was refused for. -/
def refused? {α : Type} : Except Foreign α → Option Foreign
  | .error f => some f
  | .ok _ => none

section Refused

variable {α β : Type} {x : Except Foreign α} {f : Foreign}

theorem refused?_eq_some_iff : refused? x = some f ↔ x = .error f := by
  cases x with
  | error g => exact ⟨fun h => congrArg Except.error (Option.some.inj h), fun h => by cases h; rfl⟩
  | ok a => exact ⟨fun h => (nomatch h), fun h => (nomatch h)⟩

/-- What is made of a result has no part in its being refused. -/
theorem refused?_map (g : α → β) (x : Except Foreign α) : refused? (x.map g) = refused? x := by
  cases x <;> rfl

/-- What is done second is only refused for something if the first is not. -/
theorem refused?_bind {next : α → Except Foreign β} {o : Option Foreign}
    (h : ∀ a, refused? (next a) = o) : refused? (x.bind next) = (refused? x).or o := by
  cases x with
  | error f => rfl
  | ok a => exact h a

end Refused

namespace Draft

/-- The foreign leaves, from left to right. -/
def foreigns : Draft → List Foreign
  | .literal _ => []
  | .not d => d.foreigns
  | .and l r | .or l r => l.foreigns ++ r.foreigns
  | .foreign f => [f]

/-! ## Checks -/

/-- From left to right, the first foreign leaf is the one that is found. -/
theorem refused?_checkLeft (d : Draft) : refused? d.checkLeft = d.foreigns.head? := by
  induction d with
  | literal b => rfl
  | not d ih =>
      show refused? (d.checkLeft.map Expr.not) = d.foreigns.head?
      rw [refused?_map, ih]
  | and l r ihl ihr | or l r ihl ihr =>
      show refused? (l.checkLeft.bind fun _ => r.checkLeft.map _) = (l.foreigns ++ r.foreigns).head?
      rw [List.head?_append, ← ihl, ← ihr]
      exact refused?_bind fun _ => refused?_map _ _
  | foreign f => rfl

/-- From right to left, it is the last one. -/
theorem refused?_checkRight (d : Draft) : refused? d.checkRight = d.foreigns.getLast? := by
  induction d with
  | literal b => rfl
  | not d ih =>
      show refused? (d.checkRight.map Expr.not) = d.foreigns.getLast?
      rw [refused?_map, ih]
  | and l r ihl ihr | or l r ihl ihr =>
      show refused? (r.checkRight.bind fun _ => l.checkRight.map _) =
        (l.foreigns ++ r.foreigns).getLast?
      rw [List.getLast?_append, ← ihl, ← ihr]
      exact refused?_bind fun _ => refused?_map _ _
  | foreign f => rfl

/-- A draft that was made of a tree is checked to be that tree. -/
theorem checkLeft_ofExpr (e : Expr) : (ofExpr e).checkLeft = .ok e := by
  induction e with
  | literal b => rfl
  | not e ih => rw [ofExpr, checkLeft, ih]; rfl
  | and l r ihl ihr | or l r ihl ihr => rw [ofExpr, checkLeft, ihl, ihr]; rfl

theorem checkRight_ofExpr (e : Expr) : (ofExpr e).checkRight = .ok e := by
  induction e with
  | literal b => rfl
  | not e ih => rw [ofExpr, checkRight, ih]; rfl
  | and l r ihl ihr | or l r ihl ihr => rw [ofExpr, checkRight, ihl, ihr]; rfl

/-- A draft without foreign leaves is the draft of a tree. -/
theorem foreigns_eq_nil_iff (d : Draft) : d.foreigns = [] ↔ ∃ e, d = ofExpr e := by
  constructor
  · induction d with
    | literal b => exact fun _ => ⟨.literal b, rfl⟩
    | not d ih =>
        intro h
        obtain ⟨e, rfl⟩ := ih h
        exact ⟨.not e, rfl⟩
    | and l r ihl ihr =>
        intro h
        obtain ⟨hl, hr⟩ := List.append_eq_nil_iff.mp h
        obtain ⟨el, rfl⟩ := ihl hl
        obtain ⟨er, rfl⟩ := ihr hr
        exact ⟨.and el er, rfl⟩
    | or l r ihl ihr =>
        intro h
        obtain ⟨hl, hr⟩ := List.append_eq_nil_iff.mp h
        obtain ⟨el, rfl⟩ := ihl hl
        obtain ⟨er, rfl⟩ := ihr hr
        exact ⟨.or el er, rfl⟩
    | foreign f => exact fun h => nomatch h
  · rintro ⟨e, rfl⟩
    have hnone := refused?_checkLeft (ofExpr e)
    rw [checkLeft_ofExpr] at hnone
    exact List.head?_eq_none_iff.mp hnone.symm

/-! ## The object -/

/-- The walk fills in the object of the draft, whatever number it has and
    whatever else is in the store. The right operand is filled in after all of
    the left one. -/
theorem run_objectWalk (d : Draft) : ∀ (n : Nat) (s : Json.Store),
    objectWalk.run [(d, n)] s = d.checkLeft.map fun e => s.fill e n := by
  induction d with
  | literal b => exact fun n s => (Walk.run_singleton_of_visited rfl).trans (Walk.run_nil ..)
  | not d ih =>
      intro n s
      rw [Walk.run_singleton_of_visited rfl, ih, checkLeft]
      cases d.checkLeft <;> rfl
  | and l r ihl ihr | or l r ihl ihr =>
      intro n s
      rw [Walk.run_singleton_of_visited rfl, Walk.run_cons, ihl, checkLeft]
      cases l.checkLeft with
      | error f => rfl
      | ok e =>
          show objectWalk.run [(r, _)] _ = _
          rw [ihr]
          cases r.checkLeft <;> rfl
  | foreign f => exact fun n s => Walk.run_of_ended rfl []

/-- So the object of a draft is that of the tree it is checked to be. -/
theorem toJson_eq (d : Draft) : d.toJson = d.checkLeft.map Expr.toJson := by
  rw [toJson, run_objectWalk]
  cases d.checkLeft with
  | error f => rfl
  | ok e => exact congrArg Except.ok (Json.Store.read_of_holds e (Json.Store.holds_fill e rfl))

/-! ## The outline -/

theorem padding_succ (indent : String) (depth : Nat) :
    padding indent (depth + 1) = padding indent depth ++ indent := by
  rw [padding, List.replicate_succ', String.join_append, String.join_cons, String.join_nil,
    String.append_empty]
  rfl

/-- The lines of a tree at a depth, with the word for its place. -/
def linesAt (indent : String) (depth : Nat) (place : Option String) (e : Expr) : List String :=
  e.outlineLines indent (padding indent depth) (label place)

/-- One level down, the padding has grown by one indent. -/
theorem linesAt_not (indent : String) (depth : Nat) (place : Option String) (e : Expr) :
    linesAt indent depth place (.not e) =
      outlineLine indent depth place "Not" :: linesAt indent (depth + 1) (some "operand") e := by
  rw [linesAt, linesAt, padding_succ]
  rfl

theorem linesAt_and (indent : String) (depth : Nat) (place : Option String) (l r : Expr) :
    linesAt indent depth place (.and l r) =
      outlineLine indent depth place "And" :: (linesAt indent (depth + 1) (some "left") l ++
        linesAt indent (depth + 1) (some "right") r) := by
  rw [linesAt, linesAt, linesAt, padding_succ]
  rfl

theorem linesAt_or (indent : String) (depth : Nat) (place : Option String) (l r : Expr) :
    linesAt indent depth place (.or l r) =
      outlineLine indent depth place "Or" :: (linesAt indent (depth + 1) (some "left") l ++
        linesAt indent (depth + 1) (some "right") r) := by
  rw [linesAt, linesAt, linesAt, padding_succ]
  rfl

/-- The lines of a tree are written behind those there are. -/
theorem run_outlineWalk (indent : String) (d : Draft) :
    ∀ (depth : Nat) (place : Option String) (lines : Array String),
      (outlineWalk indent).run [(d, depth, place)] lines =
        d.checkLeft.map fun e => lines ++ (linesAt indent depth place e).toArray := by
  induction d with
  | literal b =>
      intro depth place lines
      rw [Walk.run_singleton_of_visited rfl, Walk.run_nil]
      exact congrArg Except.ok Array.push_eq_append
  | not d ih =>
      intro depth place lines
      rw [Walk.run_singleton_of_visited rfl, ih, checkLeft]
      cases d.checkLeft with
      | error f => rfl
      | ok e =>
          refine congrArg Except.ok ?_
          simp [linesAt_not]
  | and l r ihl ihr | or l r ihl ihr =>
      intro depth place lines
      rw [Walk.run_singleton_of_visited rfl, Walk.run_cons, ihl, checkLeft]
      cases l.checkLeft with
      | error f => rfl
      | ok e =>
          show (outlineWalk indent).run [(r, _)] _ = _
          rw [ihr]
          cases r.checkLeft with
          | error f => rfl
          | ok e₁ =>
              refine congrArg Except.ok ?_
              simp [linesAt_and, linesAt_or]
  | foreign f => exact fun _ _ _ => Walk.run_of_ended rfl []

theorem outline_eq (indent : String) (d : Draft) :
    d.outline indent = d.checkLeft.map (Expr.outline indent) := by
  rw [outline, run_outlineWalk]
  cases d.checkLeft with
  | error f => rfl
  | ok e =>
      show Except.ok ("\n".intercalate (#[] ++ (linesAt indent 0 none e).toArray).toList) = _
      rw [Array.empty_append]
      rfl

/-! ## The measure -/

/-- The walk adds to what has been counted, at any depth. The right operand is
    on top of the left one here. -/
theorem run_measureWalk (d : Draft) : ∀ (depth : Nat) (m : Measure),
    measureWalk.run [(d, depth)] m = d.checkRight.map fun e => e.addTo depth m := by
  induction d with
  | literal b => exact fun _ _ => (Walk.run_singleton_of_visited rfl).trans (Walk.run_nil ..)
  | not d ih =>
      intro depth m
      rw [Walk.run_singleton_of_visited rfl, ih, checkRight]
      cases d.checkRight <;> rfl
  | and l r ihl ihr | or l r ihl ihr =>
      intro depth m
      rw [Walk.run_singleton_of_visited rfl, Walk.run_cons, ihr, checkRight]
      cases r.checkRight with
      | error f => rfl
      | ok e =>
          show measureWalk.run [(l, _)] _ = _
          rw [ihl]
          cases l.checkRight <;> rfl
  | foreign f => exact fun _ _ => Walk.run_of_ended rfl []

theorem measure_eq (d : Draft) : d.measure = d.checkRight.map Expr.measure := by
  rw [measure, run_measureWalk]
  rfl

/-! ## The source text -/

/-- The text of a draft, with every foreign text as it is. -/
def text : Draft → String
  | .literal b => Expr.word b
  | .not d => "!" ++ d.text
  | .and l r => "(" ++ l.text ++ "&&" ++ r.text ++ ")"
  | .or l r => "(" ++ l.text ++ "||" ++ r.text ++ ")"
  | .foreign (.text s) => s
  | .foreign _ => ""

/-- The foreign leaves that are no texts, from left to right. -/
def unprintable (d : Draft) : List Foreign := d.foreigns.filter fun f => f.typeName ≠ "str"

/-- A sign is printed at once. -/
theorem run_sign (s : String) (pile : List Draft) (printed : Array String) :
    sourceWalk.run (sign s :: pile) printed = sourceWalk.run pile (printed.push s) := by
  have h : sourceWalk.visit (sign s) printed = .ok ([], printed.push s) := rfl
  rw [Walk.run_of_visited h, List.nil_append]

/-- What stands between signs is printed between them. -/
theorem run_between (left middle right : String) (l r : Draft) (printed : Array String) :
    sourceWalk.run [sign left, l, sign middle, r, sign right] printed =
      (sourceWalk.run [l] (printed.push left)).bind fun p =>
        (sourceWalk.run [r] (p.push middle)).map fun p => p.push right := by
  rw [run_sign, Walk.run_cons]
  refine congrArg (Except.bind _) (funext fun p => ?_)
  rw [run_sign, Walk.run_cons]
  cases sourceWalk.run [r] (p.push middle) with
  | error f => rfl
  | ok p => exact (run_sign right [] p).trans (Walk.run_nil ..)

/-- Signs and words are texts, so the walk is refused for a foreign leaf that is
    none, and first comes the leftmost. -/
theorem refused?_sourceWalk (d : Draft) : ∀ printed : Array String,
    refused? (sourceWalk.run [d] printed) = d.unprintable.head? := by
  have hpair : ∀ l r : Draft, (l.foreigns ++ r.foreigns).filter (fun f => f.typeName ≠ "str") =
      l.unprintable ++ r.unprintable := fun l r => List.filter_append ..
  induction d with
  | literal b =>
      intro printed
      rw [Walk.run_singleton_of_visited rfl, Walk.run_nil]
      rfl
  | not d ih =>
      intro printed
      rw [Walk.run_singleton_of_visited rfl]
      exact ih _
  | and l r ihl ihr | or l r ihl ihr =>
      intro printed
      rw [Walk.run_singleton_of_visited rfl, run_between, unprintable, foreigns, hpair,
        List.head?_append, ← ihl]
      refine refused?_bind fun p => ?_
      rw [refused?_map, ihr]
  | foreign f =>
      intro printed
      cases f with
      | text s => exact congrArg refused? ((run_sign s [] printed).trans (Walk.run_nil ..))
      | _ => exact congrArg refused? (Walk.run_of_ended rfl [])

/-- The walk over a draft prints its text behind what there is. -/
def PrintsText (d : Draft) : Prop :=
  ∀ {printed p : Array String}, sourceWalk.run [d] printed = .ok p →
    String.join p.toList = String.join printed.toList ++ d.text

/-- If two drafts print their texts, so does what joins them. -/
theorem join_of_between {l r : Draft} (hl : PrintsText l) (hr : PrintsText r)
    {left middle right : String} {printed p : Array String}
    (h : sourceWalk.run [sign left, l, sign middle, r, sign right] printed = .ok p) :
    String.join p.toList =
      String.join printed.toList ++ (left ++ l.text ++ middle ++ r.text ++ right) := by
  rw [run_between] at h
  cases hleft : sourceWalk.run [l] (printed.push left) with
  | error f =>
      rw [hleft] at h
      cases h
  | ok q =>
      rw [hleft] at h
      change (sourceWalk.run [r] (q.push middle)).map _ = _ at h
      cases hright : sourceWalk.run [r] (q.push middle) with
      | error f =>
          rw [hright] at h
          cases h
      | ok t =>
          rw [hright] at h
          cases h
          simp only [Array.toList_push, String.join_append, String.join_cons, String.join_nil,
            String.append_empty, hr hright, hl hleft, String.append_assoc]

/-- By induction on the draft: the walk prints what the draft reads as. -/
theorem printsText (d : Draft) : PrintsText d := by
  induction d with
  | literal b =>
      intro printed p h
      rw [Walk.run_singleton_of_visited rfl, Walk.run_nil] at h
      cases h
      simp [text]
  | not d ih =>
      intro printed p h
      rw [Walk.run_singleton_of_visited rfl] at h
      rw [ih h]
      simp [text, String.append_assoc]
  | and l r ihl ihr | or l r ihl ihr =>
      intro printed p h
      rw [Walk.run_singleton_of_visited rfl] at h
      exact join_of_between ihl ihr h
  | foreign f =>
      intro printed p h
      cases f with
      | text s =>
          cases ((run_sign s [] printed).trans (Walk.run_nil ..)).symm.trans h
          simp [text]
      | _ => exact nomatch (Walk.run_of_ended rfl []).symm.trans h

theorem refused?_source (d : Draft) : refused? d.source = d.unprintable.head? := by
  rw [source, refused?_map, refused?_sourceWalk]

/-- What is printed, if nothing is refused, is the text. -/
theorem source_eq_ok_iff (d : Draft) (t : String) :
    d.source = .ok t ↔ d.unprintable = [] ∧ t = d.text := by
  have hrefused := refused?_source d
  rw [source] at hrefused ⊢
  cases hrun : sourceWalk.run [d] #[] with
  | error f =>
      rw [hrun] at hrefused
      constructor
      · intro h
        cases h
      · rintro ⟨hnil, -⟩
        rw [hnil] at hrefused
        cases hrefused
  | ok p =>
      rw [hrun] at hrefused
      have hjoin : String.join p.toList = d.text := by
        rw [printsText d hrun]
        exact String.empty_append
      show Except.ok (String.join p.toList) = .ok t ↔ _
      rw [hjoin]
      constructor
      · intro h
        exact ⟨List.head?_eq_none_iff.mp hrefused.symm, (Except.ok.inj h).symm⟩
      · rintro ⟨-, rfl⟩
        rfl

/-- The text of a tree's draft is the source of the tree. -/
theorem text_ofExpr (e : Expr) : (ofExpr e).text = e.source := by
  induction e with
  | literal b => rfl
  | not e ih => rw [ofExpr, text, ih, Expr.source]
  | and l r ihl ihr | or l r ihl ihr => rw [ofExpr, text, ihl, ihr, Expr.source]

/-! ## Trees -/

/-- Of a tree, the walks make its object, its outline, its measure and its
    source text. -/
theorem walks_ofExpr (e : Expr) (indent : String) :
    (ofExpr e).toJson = .ok e.toJson ∧ (ofExpr e).outline indent = .ok (e.outline indent) ∧
      (ofExpr e).measure = .ok e.measure ∧ (ofExpr e).source = .ok e.source := by
  refine ⟨?_, ?_, ?_, ?_⟩
  · rw [toJson_eq, checkLeft_ofExpr]
    rfl
  · rw [outline_eq, checkLeft_ofExpr]
    rfl
  · rw [measure_eq, checkRight_ofExpr]
    rfl
  · rw [source_eq_ok_iff, unprintable, (foreigns_eq_nil_iff _).mpr ⟨e, rfl⟩, text_ofExpr]
    exact ⟨rfl, rfl⟩

/-- FOREIGN LEAVES: the object and the outline of a draft are refused just if
    it has a foreign leaf, and for the leftmost one; the measure likewise, and
    for the rightmost one.  The source text is refused just if some foreign leaf
    is no text, and for the leftmost such one; otherwise all texts are printed
    as they are, where they are.  The refusal names the type of the leaf.  A
    draft without foreign leaves is that of a tree, and nothing is refused. -/
theorem foreign_leaves (d : Draft) (indent : String) :
    (∀ f, d.toJson = .error f ↔ d.foreigns.head? = some f) ∧
    (∀ f, d.outline indent = .error f ↔ d.foreigns.head? = some f) ∧
    (∀ f, d.measure = .error f ↔ d.foreigns.getLast? = some f) ∧
    (∀ f, d.source = .error f ↔
      (d.foreigns.filter fun f => f.typeName ≠ "str").head? = some f) ∧
    (∀ t, d.source = .ok t ↔ (∀ f ∈ d.foreigns, f.typeName = "str") ∧ t = d.text) ∧
    (∀ f ∈ d.foreigns, f.message = "Unknown node " ++ f.typeName) ∧
    (d.foreigns = [] ↔ ∃ e, d = ofExpr e) ∧
    (∀ e, d = ofExpr e → d.toJson = .ok e.toJson ∧ d.outline indent = .ok (e.outline indent) ∧
      d.measure = .ok e.measure ∧ d.source = .ok e.source) := by
  refine ⟨fun f => ?_, fun f => ?_, fun f => ?_, fun f => ?_, fun t => ?_, fun _ _ => rfl,
    d.foreigns_eq_nil_iff, ?_⟩
  · rw [← refused?_eq_some_iff, toJson_eq, refused?_map, refused?_checkLeft]
  · rw [← refused?_eq_some_iff, outline_eq, refused?_map, refused?_checkLeft]
  · rw [← refused?_eq_some_iff, measure_eq, refused?_map, refused?_checkRight]
  · rw [← refused?_eq_some_iff, refused?_source, unprintable]
  · rw [source_eq_ok_iff, unprintable, List.filter_eq_nil_iff]
    simp only [decide_eq_true_eq, ne_eq, Decidable.not_not]
  · rintro e rfl
    exact walks_ofExpr e indent

/-- Of three foreign leaves, the walks refuse three different ones; texts alone
    are printed, though they read like signs. -/
theorem foreign_leaves_mixed :
    (Draft.and (.foreign (.text "true")) (.or (.not (.foreign (.number 5)))
      (.foreign .nothing))).toJson = .error (.text "true") ∧
    (Draft.and (.foreign (.text "true")) (.or (.not (.foreign (.number 5)))
      (.foreign .nothing))).source = .error (.number 5) ∧
    (Draft.and (.foreign (.text "true")) (.or (.not (.foreign (.number 5)))
      (.foreign .nothing))).measure = .error .nothing ∧
    (Draft.not (.or (.foreign (.text ")")) (.literal false))).source = .ok "!()||false)" := by
  obtain ⟨hobject, -, hmeasure, hsource, -⟩ :=
    foreign_leaves (.and (.foreign (.text "true")) (.or (.not (.foreign (.number 5)))
      (.foreign .nothing))) ""
  obtain ⟨-, -, -, -, hprinted, -⟩ :=
    foreign_leaves (.not (.or (.foreign (.text ")")) (.literal false))) ""
  exact ⟨(hobject _).mpr rfl, (hsource _).mpr (by decide), (hmeasure _).mpr rfl,
    (hprinted _).mpr (by decide)⟩

end Draft

end TruthExpr
