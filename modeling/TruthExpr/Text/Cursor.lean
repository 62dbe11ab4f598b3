/-! # Cursors — a place in a text, counted in code points

    A cursor may stand anywhere, also before the text or past its end.  A
    negative position counts from the end of the text, and one that lies
    before the text counts as its beginning; past the end nothing is left.
    Moving a cursor only adds to its position, so a cursor that starts at a
    negative position looks at another place once it has moved to 0.

    The main statement is `startsWith_iff`: a cursor starts with a lead
    exactly when it is not past the end and the lead is a beginning of what
    is left. -/

namespace TruthExpr

/-- A text together with a position in it. -/
structure Cursor where
  text : Array Char
  pos : Int := 0
deriving DecidableEq, Repr

namespace Cursor

/-- The beginning of a text. -/
def ofString (text : String) : Cursor :=
  { text := text.toList.toArray }

/-- How many characters of the text lie to the left of the cursor. -/
def offset (c : Cursor) : Nat :=
  if c.pos < 0 then (c.pos + c.text.size).toNat else c.pos.toNat

/-- What is left of the text, as characters. -/
def left (c : Cursor) : List Char :=
  c.text.toList.drop c.offset

/-- What is left of the text. -/
def rest (c : Cursor) : String :=
  String.ofList c.left

/-- Nothing is left to the right of the position. -/
def atEnd (c : Cursor) : Bool :=
  decide ((c.text.size : Int) ≤ c.pos)

/-- Moves the cursor by `n` characters. -/
def advance (c : Cursor) (n : Int) : Cursor :=
  { c with pos := c.pos + n }

/-- How far the position is from the end of the text. -/
def distance (c : Cursor) : Nat :=
  ((c.text.size : Int) - c.pos).toNat

/-- The characters of `lead` stand in `text` from index `i` on. -/
def matchesAt (text : Array Char) : List Char → Nat → Bool
  | [], _ => true
  | x :: xs, i =>
      match text[i]? with
      | some y => x == y && matchesAt text xs (i + 1)
      | none => false

/-- The text goes on with `lead` at the cursor.  Past the end it goes on with
    nothing, not even with the empty lead. -/
def startsWith (c : Cursor) (lead : String) : Bool :=
  decide (c.pos ≤ c.text.size) && matchesAt c.text lead.toList c.offset

theorem matchesAt_iff (text : Array Char) (lead : List Char) (i : Nat) :
    matchesAt text lead i = true ↔ lead <+: text.toList.drop i := by
  induction lead generalizing i with
  | nil => simp [matchesAt]
  | cons x xs ih =>
      by_cases h : i < text.size
      · rw [List.drop_eq_getElem_cons (by simpa using h)]
        simp [matchesAt, h, ih, List.cons_prefix_cons]
      · have hd : text.toList.drop i = [] := by
          apply List.drop_eq_nil_of_le
          simpa using h
        simp [matchesAt, h, hd]

/-- A cursor starts with a lead exactly when it is not past the end and the
    lead is a beginning of what is left. -/
theorem startsWith_iff (c : Cursor) (lead : String) :
    c.startsWith lead = true ↔ c.pos ≤ c.text.size ∧ lead.toList <+: c.left := by
  simp [startsWith, matchesAt_iff, left]

end Cursor

end TruthExpr
