import TruthExpr.Expr.View
import TruthExpr.Json

/-! # Tree codes — texts that show where a tree ends

    A code is SELF-DELIMITING if a text can begin with only one of its words:
    then what follows a word cannot be taken for a part of it.

    Outlines and written objects are made alike.  First comes a LEAD, which says
    what sort of node the root is, then the texts of the operands, with what
    stands between and behind them.  If the leads for one place are
    self-delimiting, so are the texts of whole trees (`TreeCode.selfDelimiting`).
    Which lead it is depends on the place, for the outline: its padding and its
    labels may look like anything, but they are the same for every tree that
    could stand there. -/

namespace TruthExpr

/-- No two words begin the same text. -/
def SelfDelimiting {α : Type} (code : α → List Char) : Prop :=
  ∀ ⦃a b : α⦄ ⦃x y : List Char⦄, code a ++ x = code b ++ y → a = b ∧ x = y

section SelfDelimiting

variable {α : Type} {code : α → List Char}

/-- It is enough that no word begins another one. -/
theorem selfDelimiting_of_prefix (h : ∀ a b, code a <+: code b → a = b) :
    SelfDelimiting code := by
  intro a b x y heq
  have hab : a = b := by
    have ha : code a <+: code b ++ y := ⟨x, heq⟩
    rcases List.prefix_or_prefix_of_prefix ha (List.prefix_append (code b) y) with hp | hp
    · exact h a b hp
    · exact (h b a hp).symm
  subst hab
  exact ⟨rfl, List.append_cancel_left heq⟩

/-- The same text may be put before all words. -/
theorem SelfDelimiting.prepend (h : SelfDelimiting code) (lead : List Char) :
    SelfDelimiting fun a => lead ++ code a := by
  intro a b x y heq
  simp only [List.append_assoc] at heq
  exact h (List.append_cancel_left heq)

/-- The same text may be put behind all words. -/
theorem SelfDelimiting.append (h : SelfDelimiting code) (tail : List Char) :
    SelfDelimiting fun a => code a ++ tail := by
  intro a b x y heq
  simp only [List.append_assoc] at heq
  obtain ⟨hab, htail⟩ := h heq
  exact ⟨hab, List.append_cancel_left htail⟩

/-- In texts too, the first of two words and the rest can be told apart. -/
theorem SelfDelimiting.eq_of_append {word : α → String}
    (h : SelfDelimiting fun a => (word a).toList) {a b : α} {x y : String}
    (heq : word a ++ x = word b ++ y) : a = b ∧ x = y := by
  have hlist := congrArg String.toList heq
  rw [String.toList_append, String.toList_append] at hlist
  obtain ⟨hab, hrest⟩ := h hlist
  exact ⟨hab, String.toList_inj.mp hrest⟩

/-- A row of words that are not empty falls into words in one way. -/
theorem SelfDelimiting.flatMap_injective (h : SelfDelimiting code) (hne : ∀ a, code a ≠ [])
    {as : List α} : ∀ {bs : List α}, as.flatMap code = bs.flatMap code → as = bs := by
  induction as with
  | nil =>
      intro bs heq
      cases bs with
      | nil => rfl
      | cons b bs => exact absurd (List.append_eq_nil_iff.mp heq.symm).1 (hne b)
  | cons a as ih =>
      intro bs heq
      cases bs with
      | nil => exact absurd (List.append_eq_nil_iff.mp heq).1 (hne a)
      | cons b bs =>
          obtain ⟨rfl, hrest⟩ := h heq
          rw [ih hrest]

end SelfDelimiting

/-! ## Codes of trees -/

/-- What sort of node the root of a tree is. -/
inductive Root where
  | literal (value : Bool)
  | not
  | and
  | or
deriving DecidableEq

namespace Expr

/-- The root of a tree. -/
def root : Expr → Root
  | .literal b => .literal b
  | .not _ => .not
  | .and _ _ => .and
  | .or _ _ => .or

end Expr

/-- Where an operand stands in its parent. -/
inductive Place where
  | operand
  | left
  | right

/-- How trees are written in places of type `κ`. -/
structure TreeCode (κ : Type) where
  lead : κ → Root → List Char
  /-- The place of an operand of a tree. -/
  inside : κ → Place → κ
  /-- What stands between two operands. -/
  between : List Char
  /-- What stands behind the last operand. -/
  behind : List Char

namespace TreeCode

variable {κ : Type}

/-- The text of a tree in a place. -/
def text (c : TreeCode κ) (k : κ) (e : Expr) : List Char :=
  c.lead k e.root ++
    match e with
    | .literal _ => []
    | .not e => c.text (c.inside k .operand) e ++ c.behind
    | .and l r | .or l r =>
        c.text (c.inside k .left) l ++ (c.between ++ (c.text (c.inside k .right) r ++ c.behind))

/-- The text of a tree without its lead. -/
def operands (c : TreeCode κ) (k : κ) : Expr → List Char
  | .literal _ => []
  | .not e => c.text (c.inside k .operand) e ++ c.behind
  | .and l r | .or l r =>
      c.text (c.inside k .left) l ++ (c.between ++ (c.text (c.inside k .right) r ++ c.behind))

/-- Every word begins with the lead for its root. -/
theorem text_eq (c : TreeCode κ) (k : κ) (e : Expr) :
    c.text k e = c.lead k e.root ++ c.operands k e := by
  cases e <;> rfl

/-- The tree can be told from every text that it begins. -/
def Tells (c : TreeCode κ) (t : Expr) : Prop :=
  ∀ {k : κ} {u : Expr} {x y : List Char}, c.text k t ++ x = c.text k u ++ y → t = u ∧ x = y

/-- Two operands are told one after the other. -/
theorem Tells.both {c : TreeCode κ} {l r l₁ r₁ : Expr} (hl : c.Tells l) (hr : c.Tells r)
    {kl kr : κ} {x y : List Char}
    (h : c.text kl l ++ (c.between ++ (c.text kr r ++ c.behind)) ++ x =
      c.text kl l₁ ++ (c.between ++ (c.text kr r₁ ++ c.behind)) ++ y) :
    l = l₁ ∧ r = r₁ ∧ x = y := by
  simp only [List.append_assoc] at h
  obtain ⟨hleft, h⟩ := hl h
  obtain ⟨hright, h⟩ := hr (List.append_cancel_left h)
  exact ⟨hleft, hright, List.append_cancel_left h⟩

/-- The lead tells the root, and what is left tells the operands. -/
theorem tells {c : TreeCode κ} (hlead : ∀ k, SelfDelimiting (c.lead k)) (t : Expr) :
    c.Tells t := by
  have hroot : ∀ {k : κ} {t u : Expr} {x y : List Char}, c.text k t ++ x = c.text k u ++ y →
      t.root = u.root ∧ c.operands k t ++ x = c.operands k u ++ y := by
    intro k t u x y h
    rw [text_eq, text_eq, List.append_assoc, List.append_assoc] at h
    exact hlead k h
  induction t with
  | literal b =>
      intro k u x y h
      obtain ⟨hr, hrest⟩ := hroot h
      cases u with
      | literal b₁ =>
          cases hr
          exact ⟨rfl, hrest⟩
      | _ => cases hr
  | not t ih =>
      intro k u x y h
      obtain ⟨hr, hrest⟩ := hroot h
      cases u with
      | not u =>
          simp only [operands, List.append_assoc] at hrest
          obtain ⟨rfl, heq⟩ := ih hrest
          exact ⟨rfl, List.append_cancel_left heq⟩
      | _ => cases hr
  | and l r ihl ihr =>
      intro k u x y h
      obtain ⟨hr, hrest⟩ := hroot h
      cases u with
      | and l₁ r₁ =>
          obtain ⟨rfl, rfl, heq⟩ := ihl.both ihr hrest
          exact ⟨rfl, heq⟩
      | _ => cases hr
  | or l r ihl ihr =>
      intro k u x y h
      obtain ⟨hr, hrest⟩ := hroot h
      cases u with
      | or l₁ r₁ =>
          obtain ⟨rfl, rfl, heq⟩ := ihl.both ihr hrest
          exact ⟨rfl, heq⟩
      | _ => cases hr

/-- If the leads can be told from what follows them, so can all words. -/
theorem selfDelimiting {c : TreeCode κ} (hlead : ∀ k, SelfDelimiting (c.lead k)) (k : κ) :
    SelfDelimiting (c.text k) :=
  fun t _ _ _ h => tells hlead t h

end TreeCode

/-! ## Outlines -/

/-- What a root is called in an outline; a line that has others below it ends. -/
def Root.line : Root → String
  | .literal b => "Literal(" ++ Expr.word b ++ ")"
  | .not => "Not\n"
  | .and => "And\n"
  | .or => "Or\n"

/-- No name begins another one: a literal's ends with its bracket, the others
    with their line. -/
theorem selfDelimiting_line : SelfDelimiting fun r : Root => r.line.toList := by
  refine selfDelimiting_of_prefix fun a b => ?_
  rcases a with (_ | _) | _ | _ | _ <;> rcases b with (_ | _) | _ | _ | _ <;> decide

/-- The label of a place in an outline. -/
def Place.label : Place → String
  | .operand => "operand: "
  | .left => "left: "
  | .right => "right: "

/-- Outlines, in a place given by its padding and its label. -/
def outlineCode (indent : String) : TreeCode (String × String) where
  lead k r := (k.1 ++ k.2).toList ++ r.line.toList
  inside k p := (k.1 ++ indent, p.label)
  between := ['\n']
  behind := []

/-- So outlines in one place can be told from what follows them. -/
theorem selfDelimiting_outlineCode (indent : String) (k : String × String) :
    SelfDelimiting ((outlineCode indent).text k) :=
  TreeCode.selfDelimiting (fun k => selfDelimiting_line.prepend (k.1 ++ k.2).toList) k

/-- There is a line for the root at least. -/
theorem outlineLines_ne_nil (indent pad label : String) (e : Expr) :
    e.outlineLines indent pad label ≠ [] := by
  cases e <;> exact List.cons_ne_nil _ _

/-- The lines of a tree are written in the code for outlines. -/
theorem toList_outlineLines (indent : String) (e : Expr) : ∀ pad label : String,
    ("\n".intercalate (e.outlineLines indent pad label)).toList =
      (outlineCode indent).text (pad, label) e := by
  induction e with
  | literal b =>
      intro pad label
      show ("\n".intercalate [pad ++ label ++ _]).toList = _
      rw [String.intercalate_singleton, String.toList_append]
      exact (List.append_nil _).symm
  | not e ih =>
      intro pad label
      show ("\n".intercalate (_ :: e.outlineLines indent (pad ++ indent) "operand: ")).toList = _
      rw [String.intercalate_cons_of_ne_nil (outlineLines_ne_nil _ _ _ _), String.toList_append,
        ih (pad ++ indent) "operand: "]
      simp [TreeCode.text, outlineCode, Root.line, Expr.root, Place.label, Expr.title]
  | and l r ihl ihr | or l r ihl ihr =>
      intro pad label
      show ("\n".intercalate (_ :: (l.outlineLines indent (pad ++ indent) "left: " ++
        r.outlineLines indent (pad ++ indent) "right: "))).toList = _
      rw [String.intercalate_cons_of_ne_nil (by simp [outlineLines_ne_nil]),
        String.intercalate_append_of_ne_nil (outlineLines_ne_nil _ _ _ _)
          (outlineLines_ne_nil _ _ _ _)]
      simp [TreeCode.text, outlineCode, Root.line, Expr.root, Place.label, Expr.title, ihl, ihr]

/-- Outlines are written in this code, so the same is true of them. -/
theorem selfDelimiting_outline (indent : String) :
    SelfDelimiting fun e : Expr => (e.outline indent).toList := by
  have hcode : (fun e : Expr => (e.outline indent).toList) =
      (outlineCode indent).text ("", "") :=
    funext fun e => toList_outlineLines indent e "" ""
  rw [hcode]
  exact selfDelimiting_outlineCode indent _

/-! ## Written objects -/

/-- What the object of a tree begins with. -/
def Root.opening : Root → String
  | .literal b => "\x7b\"type\": \"Literal\", \"value\": " ++ Expr.word b ++ "\x7d"
  | .not => "\x7b\"type\": \"Not\", \"operand\": "
  | .and => "\x7b\"type\": \"And\", \"left\": "
  | .or => "\x7b\"type\": \"Or\", \"left\": "

/-- The type stands first in an object, and is closed by a quotation mark. -/
theorem selfDelimiting_opening : SelfDelimiting fun r : Root => r.opening.toList := by
  refine selfDelimiting_of_prefix fun a b => ?_
  rcases a with (_ | _) | _ | _ | _ <;> rcases b with (_ | _) | _ | _ | _ <;> decide

/-- Written objects, which are the same in all places. -/
def objectCode : TreeCode Unit where
  lead _ r := r.opening.toList
  inside _ _ := ()
  between := ", \"right\": ".toList
  behind := "\x7d".toList

theorem selfDelimiting_objectCode : SelfDelimiting (objectCode.text ()) :=
  TreeCode.selfDelimiting (fun _ => selfDelimiting_opening) ()

theorem written_not (e : Expr) :
    (Expr.not e).toJson.written = Root.not.opening ++ (e.toJson.written ++ "\x7d") := by
  have hlead : Root.not.opening = "\x7b" ++ (Json.quoted "type" ++ ": " ++ Json.quoted "Not" ++
      ", " ++ (Json.quoted "operand" ++ ": ")) := by decide
  rw [hlead]
  simp only [Expr.toJson, Json.written, Json.writtenMembers, String.append_assoc]

/-- An object with two operands is written in three parts around them. -/
theorem written_pair (type opening : String) (l r : Json)
    (hlead : opening = "\x7b" ++ (Json.quoted "type" ++ ": " ++ Json.quoted type ++ ", " ++
      (Json.quoted "left" ++ ": "))) :
    (Json.object [("type", .string type), ("left", l), ("right", r)]).written =
      opening ++ (l.written ++ (", \"right\": " ++ (r.written ++ "\x7d"))) := by
  have hright : ", \"right\": " = ", " ++ (Json.quoted "right" ++ ": ") := by decide
  rw [hlead, hright]
  simp only [Json.written, Json.writtenMembers, String.append_assoc]

theorem written_and (l r : Expr) : (Expr.and l r).toJson.written = Root.and.opening ++
    (l.toJson.written ++ (", \"right\": " ++ (r.toJson.written ++ "\x7d"))) :=
  written_pair "And" Root.and.opening _ _ (by decide)

theorem written_or (l r : Expr) : (Expr.or l r).toJson.written = Root.or.opening ++
    (l.toJson.written ++ (", \"right\": " ++ (r.toJson.written ++ "\x7d"))) :=
  written_pair "Or" Root.or.opening _ _ (by decide)

theorem objectCode_text (e : Expr) :
    objectCode.text () e = e.root.opening.toList ++ objectCode.operands () e :=
  objectCode.text_eq () e

/-- The object of a tree is written in its code. -/
theorem toList_written (e : Expr) : e.toJson.written.toList = objectCode.text () e := by
  induction e with
  | literal b => cases b <;> decide
  | not e ih =>
      rw [written_not, objectCode_text, String.toList_append, String.toList_append, ih]
      rfl
  | and l r ihl ihr =>
      rw [written_and, objectCode_text]
      simp only [String.toList_append, ihl, ihr]
      rfl
  | or l r ihl ihr =>
      rw [written_or, objectCode_text]
      simp only [String.toList_append, ihl, ihr]
      rfl

/-- And objects are written in that code. -/
theorem selfDelimiting_written : SelfDelimiting fun e : Expr => e.toJson.written.toList := by
  have hcode : (fun e : Expr => e.toJson.written.toList) = objectCode.text () :=
    funext toList_written
  rw [hcode]
  exact selfDelimiting_objectCode

end TruthExpr
